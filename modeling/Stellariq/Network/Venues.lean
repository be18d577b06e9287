/-
# The network with its exchanges

So far the exchanges were part of the rest of the chain.  Here they are test adapters with calls of
their own: anybody may deploy one, initialize it, configure it, or swap at it directly, between any
two calls of the contracts.  What such a network computes is a matter of its history alone:

* `venues_configured`: the settings of every adapter are those of its calls that returned
  (`settings`), each of which the settings before it allowed, and they are sound;
* `swaps_at_settings`: the result of every swap that returned is the fold of the rates that these
  histories hold, at the adapters that the router's log holds for the protocols of the route.

Nothing of it assumes that an adapter is initialized, or that a rate is valid: a swap over one that
is not does not return.
-/
import Stellariq.Network.Machine
import Stellariq.Router.Audit
import Stellariq.Router.Statement
import Stellariq.Donations.Custody
import Stellariq.TestAdapter.Calls

namespace Stellariq.Network

open Kit
open TestAdapter (Deployments)

/-! ## 1. Calls of an exchange -/

/-- A call of the adapter at `x`, and what the host keeps of it. -/
def callVenue (T : Tokens Deployments) (c : Ctx) (x : Address) (i : TestAdapter.Invocation)
    (w : World Deployments) : Outcome AdapterError TestAdapter.Value × World Deployments :=
  match w.rest x with
  | none => (.trap, w)
  | some st =>
    match TestAdapter.dispatch T c i ⟨st, w, []⟩ with
    | (.ok v, s') =>
      (.ok v, { s'.world with rest := Function.update s'.world.rest x (some s'.store) })
    | (o, _) => (o, w)

/-- A call that returned was allowed, and has changed the settings of its adapter only. -/
theorem callVenue_eq_ok {T : Tokens Deployments} {c : Ctx} {x : Address}
    {i : TestAdapter.Invocation} {w w' : World Deployments} {v : TestAdapter.Value}
    (hcall : callVenue T c x i w = (.ok v, w')) :
    ∃ st, w.rest x = some st ∧ st.Allows c i ∧
      w'.rest = Function.update w.rest x (some (st.apply i)) := by
  unfold callVenue at hcall
  cases hst : w.rest x with
  | none => simp [hst] at hcall
  | some st =>
    rcases hd : TestAdapter.dispatch T c i ⟨st, w, []⟩ with ⟨v' | e | _, s'⟩
    · simp only [hst, hd, Prod.mk.injEq] at hcall
      obtain ⟨hallow, hstore, hrest⟩ := TestAdapter.dispatch_store hd
      exact ⟨st, rfl, hallow, by rw [← hcall.2, hstore, hrest]⟩
    · simp [hst, hd] at hcall
    · simp [hst, hd] at hcall

/-- A call that did not return has changed nothing. -/
theorem callVenue_of_not_ok {T : Tokens Deployments} {c : Ctx} {x : Address}
    {i : TestAdapter.Invocation} {w w' : World Deployments}
    {o : Outcome AdapterError TestAdapter.Value} (hcall : callVenue T c x i w = (o, w'))
    (ho : o.isOk = false) : w' = w := by
  unfold callVenue at hcall
  cases hst : w.rest x with
  | none =>
    simp only [hst, Prod.mk.injEq] at hcall
    exact hcall.2.symm
  | some st =>
    rcases hd : TestAdapter.dispatch T c i ⟨st, w, []⟩ with ⟨v' | e | _, s'⟩
    · simp only [hst, hd, Prod.mk.injEq] at hcall
      rw [← hcall.1] at ho
      cases ho
    · simp only [hst, hd, Prod.mk.injEq] at hcall
      exact hcall.2.symm
    · simp only [hst, hd, Prod.mk.injEq] at hcall
      exact hcall.2.symm

/-! ## 2. The network -/

inductive VenueLabel where
  | contract (l : NetLabel Deployments)
  | adapter (x : Address) (c : Ctx) (i : TestAdapter.Invocation)
      (o : Outcome AdapterError TestAdapter.Value)
  | deploy (x : Address)
  | outside

/-- The step is a call of one of the contracts, and the exchanges it sees are those of the
network. -/
def NetLabel.Here : NetLabel Deployments → Prop
  | .router t => ∃ T, t.host = TestAdapter.host T t.ctx
  | .donations _ => True
  | .outside _ => False

/-- Steps of the contracts and of the exchanges; everything else only moves tokens. -/
inductive VenueStep (a : Sites) : Net Deployments → VenueLabel → Net Deployments → Prop
  | contract {n n' : Net Deployments} {l : NetLabel Deployments} :
      Step a n l n' → l.Here → VenueStep a n (.contract l) n'
  | adapter {n : Net Deployments} {T : Tokens Deployments} {c : Ctx} {x : Address}
      {i : TestAdapter.Invocation} {o : Outcome AdapterError TestAdapter.Value}
      {w : World Deployments} :
      c.self = x → n.now ≤ c.timestamp → n.seq ≤ c.sequence →
      callVenue T c x i n.world = (o, w) →
      VenueStep a n (.adapter x c i o) ⟨n.router, n.donations, w, c.timestamp, c.sequence⟩
  | deploy {n : Net Deployments} {x : Address} :
      n.world.rest x = none →
      VenueStep a n (.deploy x)
        { n with world := { n.world with
            rest := Function.update n.world.rest x (some TestAdapter.Store.deployed) } }
  | outside {n : Net Deployments} {w : World Deployments} {now seq : Nat} :
      n.now ≤ now → n.seq ≤ seq → w.rest = n.world.rest →
      VenueStep a n .outside ⟨n.router, n.donations, w, now, seq⟩

/-- The step, as the router sees it. -/
def VenueLabel.toRouter : VenueLabel → Router.RouterLabel Deployments
  | .contract l => l.toRouter
  | .adapter _ _ _ _ | .deploy _ | .outside => .elsewhere

theorem venueStep_atRouter {a : Sites} {n n' : Net Deployments} {l : VenueLabel}
    (hstep : VenueStep a n l n') :
    Router.Step a.router n.atRouter l.toRouter n'.atRouter := by
  cases hstep with
  | contract h _ => exact step_atRouter h
  | adapter _ hnow hseq _ => exact .elsewhere hnow hseq
  | deploy _ => exact .elsewhere (le_refl _) (le_refl _)
  | outside hnow hseq _ => exact .elsewhere hnow hseq

end Stellariq.Network

namespace Stellariq.Router

open Kit
open TestAdapter (Deployments)

/-! ## 3. What a route computes -/

/-- What the registered adapter of a step turns an amount into, at its settings. -/
def outputAt (reg : Symbol → Option Address) (settings : Address → Option TestAdapter.Store)
    (amountIn : Int) (step : SwapStep) : Int :=
  (((reg step.protocol).bind settings).getD TestAdapter.Store.deployed).output step.pool amountIn

section Computes

variable {T : Tokens Deployments} {c k : Ctx} {reg : Symbol → Option Address}
  {recipient dest : Address} {step : SwapStep} {steps : List SwapStep}
  {w w' : World Deployments} {a v : Int} {x : AdapterCall} {xs : List AdapterCall}

/-- **A hop that settled, as two transfers**: the input to the adapter, and what the adapter quotes
for it to the recipient. -/
theorem HopSettles.served (hx : HopSettles (TestAdapter.host T k) c reg recipient step w a x w') :
    ∃ st w₁ out, w.rest x.adapter = some st ∧ st.quote step.pool a = some out ∧
      w.pay T step.tokenIn c.self x.adapter a = some w₁ ∧
      w₁.pay T step.tokenOut x.adapter recipient out = some w' ∧
      (recipient ≠ x.adapter → x.delivered = out) := by
  obtain ⟨w₁, _, hforward, hbefore, -, hcall, -⟩ := hx.called
  rw [callAdapter, if_neg hx.adapter_ne] at hcall
  obtain ⟨st, hst, -, -, out, hquote, hpay, -⟩ := TestAdapter.invoke_eq_ok.mp hcall
  rw [hx.args] at hquote hpay
  rw [World.rest_pay hforward] at hst
  refine ⟨st, w₁, out, hst, hquote, hforward, hpay, fun hne => ?_⟩
  rw [hx.delivered_eq hbefore, World.bal_pay hpay, Ledger.point_self, Ledger.point_of_holder_ne hne]
  omega

/-- No call of an adapter by the router changes settings. -/
theorem HopSettles.rest (hx : HopSettles (TestAdapter.host T k) c reg recipient step w a x w') :
    w'.rest = w.rest := by
  obtain ⟨_, _, _, -, -, hforward, hpay, -⟩ := hx.served
  exact (World.rest_pay hpay).trans (World.rest_pay hforward)

/-- An adapter has been called: it is neither the router nor an account without a contract. -/
theorem HopSettles.recipient_ne
    (hx : HopSettles (TestAdapter.host T k) c reg recipient step w a x w')
    (hrec : recipient = c.self ∨ w.rest recipient = none) : recipient ≠ x.adapter := by
  obtain ⟨_, _, _, hst, -⟩ := hx.served
  rintro rfl
  rcases hrec with hself | hnone
  · exact hx.adapter_ne hself
  · rw [hnone] at hst
    cases hst

theorem Settles.rest (hs : Settles (TestAdapter.host T k) c reg dest steps w a xs w' v) :
    w'.rest = w.rest := by
  induction hs with
  | nil => rfl
  | cons hhop _ ih => exact ih.trans hhop.rest

/-- **A hop that settled** was served by an initialized adapter and delivered what its rate
gives. -/
theorem HopSettles.computes (hx : HopSettles (TestAdapter.host T k) c reg recipient step w a x w')
    (ha : 0 < a) (hrec : recipient = c.self ∨ w.rest recipient = none)
    (hsound : ∀ y st, w.rest y = some st → st.Sound) :
    x.delivered = outputAt reg w.rest a step := by
  obtain ⟨st, _, out, hst, hquote, -, -, hdelivered⟩ := hx.served
  have hadmin : st.admin.isSome = true := by
    by_contra hnot
    rw [TestAdapter.Store.quote, if_neg fun h => hnot h.1] at hquote
    cases hquote
  have hvalid := (hsound _ _ hst).valid hadmin
  obtain ⟨-, -, hout⟩ := (hvalid.quote_eq_some ha).mp hquote
  rw [hdelivered (hx.recipient_ne hrec), ← hout, outputAt, hx.registered, Option.bind_some,
    hst, Option.getD_some]

/-- **A route that settled** computed the fold of the rates. -/
theorem Settles.computes
    (hs : Settles (TestAdapter.host T k) c reg dest steps w a xs w' v) (ha : 0 < a)
    (hdest : w.rest dest = none) (hsound : ∀ y st, w.rest y = some st → st.Sound) :
    v = steps.foldl (outputAt reg w.rest) a := by
  induction hs with
  | nil => rfl
  | @cons step steps w₀ w₁ w₂ a v x xs hhop _ ih =>
    have hrec : (if steps = [] then dest else c.self) = c.self ∨
        w₀.rest (if steps = [] then dest else c.self) = none := by
      split
      · exact .inr hdest
      · exact .inl rfl
    have hrest := hhop.rest
    have hv := ih hhop.delivered_pos (hrest ▸ hdest) (hrest ▸ hsound)
    rw [hv, hrest, List.foldl_cons, hhop.computes ha hrec hsound]

/-- The settings of the exchanges, after a call of the router. -/
theorem step_settings {self : Address} {b b' : Chain Store Deployments} {t : Tx (Host Deployments)
    Invocation Value DataKey RouterEvent AdapterCall RouterError}
    (hstep : Step self b (.tx t) b') (hhost : ∃ T, t.host = TestAdapter.host T t.ctx) :
    b'.world.rest = b.world.rest := by
  obtain ⟨T, hhost⟩ := hhost
  cases hstep with
  | failed => rfl
  | @returned h c i v s _ _ _ hd =>
    obtain rfl : h = TestAdapter.host T c := hhost
    have hp := dispatch_performs hd
    by_cases hi : ∀ p, i ≠ .swap p
    · exact congrArg World.rest (hp.quiet hi).1
    · push Not at hi
      obtain ⟨p, rfl⟩ := hi
      cases hp with
      | view hview => cases hview
      | swap _ _ hpay hset _ => exact hset.rest.trans (World.rest_pay hpay)

/-- **A swap that returned**, as a step: it computed the fold of the rates. -/
theorem step_computes {self : Address} {b b' : Chain Store Deployments} {t : Tx (Host Deployments)
    Invocation Value DataKey RouterEvent AdapterCall RouterError} {p : SwapParams} {v : Int}
    (hstep : Step self b (.tx t) b') (hhost : ∃ T, t.host = TestAdapter.host T t.ctx)
    (hcall : t.call = .swap p) (hout : t.outcome = .ok (.amount v))
    (htrader : b.world.rest p.trader = none)
    (hsound : ∀ y st, b.world.rest y = some st → st.Sound) :
    v = p.path.foldl (outputAt b.store.adapterOf b.world.rest) p.amountIn := by
  obtain ⟨T, hhost⟩ := hhost
  cases hstep with
  | failed _ _ _ _ ho =>
    cases hout
    cases ho
  | @returned h c i _ s _ _ _ hd =>
    obtain rfl : h = TestAdapter.host T c := hhost
    obtain rfl : i = .swap p := hcall
    cases hout
    cases dispatch_performs hd with
    | view hview => cases hview
    | swap had _ hpay hset _ =>
      have hrest : _ = b.world.rest := World.rest_pay hpay
      have hv := hset.computes had.amountIn_pos (hrest ▸ htrader) (hrest ▸ hsound)
      rw [hrest] at hv
      exact hv

end Computes

end Stellariq.Router

namespace Stellariq.Donations

open Kit

/-- Donations touch nothing but balances. -/
theorem step_rest {σ : Type} {self : Address} {b b' : Chain Store σ} {t : Tx (Tokens σ) Invocation
    Value DataKey DonationEvent Empty DonationError} (hstep : Step self b (.tx t) b') :
    b'.world.rest = b.world.rest := by
  cases hstep with
  | failed => rfl
  | returned _ _ _ hd =>
    rcases (dispatch_performs hd).world with ⟨-, hworld⟩ | ⟨_, _, _, _, _, -, -, -, -, -, hpay⟩
    · exact congrArg World.rest hworld
    · exact World.rest_pay hpay

end Stellariq.Donations

namespace Stellariq.Network

open Kit
open TestAdapter (Deployments)

variable {a : Sites} {n n' : Net Deployments} {l : VenueLabel} {ls : List VenueLabel}

/-! ## 4. Histories -/

/-- What the step does to the settings at `x`. -/
def VenueLabel.configure (x : Address) (st : Option TestAdapter.Store) :
    VenueLabel → Option TestAdapter.Store
  | .adapter y _ i (.ok _) => if y = x then st.map (·.apply i) else st
  | .deploy y => if y = x then some TestAdapter.Store.deployed else st
  | .adapter _ _ _ _ | .contract _ | .outside => st

/-- The settings that the history `ls` leaves at `x`. -/
def settings (ls : List VenueLabel) (x : Address) : Option TestAdapter.Store :=
  ls.foldl (VenueLabel.configure x) none

/-- The contracts change no settings. -/
theorem step_rest {l : NetLabel Deployments} (hstep : Step a n l n') (hl : l.Here) :
    n'.world.rest = n.world.rest := by
  cases hstep with
  | router h => exact Router.step_settings h hl
  | donations h => exact Donations.step_rest h
  | outside => exact hl.elim

theorem venueStep_rest (hstep : VenueStep a n l n') (x : Address) :
    n'.world.rest x = l.configure x (n.world.rest x) := by
  cases hstep with
  | contract h hl => exact congrFun (step_rest h hl) x
  | @adapter _ c y i o w _ _ _ hcall =>
    rcases o with v | e | _
    · obtain ⟨st, hst, -, hrest⟩ := callVenue_eq_ok hcall
      have hnew : w.rest x = _ := congrFun hrest x
      rw [VenueLabel.configure]
      by_cases hx : x = y
      · subst hx
        rw [if_pos rfl, hst, Option.map_some]
        rwa [Function.update_self] at hnew
      · rw [if_neg (Ne.symm hx)]
        rwa [Function.update_of_ne hx] at hnew
    · rw [callVenue_of_not_ok hcall rfl]
      rfl
    · rw [callVenue_of_not_ok hcall rfl]
      rfl
  | @deploy y hnone =>
    rw [VenueLabel.configure]
    by_cases hx : x = y
    · subst hx
      rw [if_pos rfl]
      exact Function.update_self ..
    · rw [if_neg (Ne.symm hx)]
      exact Function.update_of_ne hx ..
  | outside _ _ hrest => exact congrFun hrest x

/-- **A call of an adapter that returned** was allowed by the settings. -/
theorem venueStep_allows {x : Address} {c : Ctx} {i : TestAdapter.Invocation}
    {v : TestAdapter.Value} (hstep : VenueStep a n (.adapter x c i (.ok v)) n') :
    ∃ st, n.world.rest x = some st ∧ st.Allows c i := by
  cases hstep with
  | adapter _ _ _ hcall =>
    obtain ⟨st, hst, hallow, -⟩ := callVenue_eq_ok hcall
    exact ⟨st, hst, hallow⟩

def SoundVenues (n : Net Deployments) : Prop := ∀ x st, n.world.rest x = some st → st.Sound

theorem soundVenues_step (hn : SoundVenues n) (hstep : VenueStep a n l n') : SoundVenues n' := by
  intro x st hst
  rw [venueStep_rest hstep] at hst
  cases l with
  | contract => exact hn x st hst
  | outside => exact hn x st hst
  | deploy y =>
    rw [VenueLabel.configure] at hst
    split at hst
    · cases hst
      exact TestAdapter.Store.sound_deployed
    · exact hn x st hst
  | adapter y c i o =>
    cases o with
    | err => exact hn x st hst
    | trap => exact hn x st hst
    | ok v =>
      rw [VenueLabel.configure] at hst
      split at hst
      · rename_i hy
        subst hy
        obtain ⟨st₀, hst₀, hallow⟩ := venueStep_allows hstep
        rw [hst₀, Option.map_some, Option.some.injEq] at hst
        subst hst
        exact (hn y st₀ hst₀).apply hallow
      · exact hn x st hst

/-- The adapter at `x` has the admin `admin`. -/
def Administered (x admin : Address) (n : Net Deployments) : Prop :=
  ∃ st, n.world.rest x = some st ∧ st.admin = some admin

theorem administered_step {x admin : Address} (hn : Administered x admin n)
    (hstep : VenueStep a n l n') : Administered x admin n' := by
  obtain ⟨st, hst, hadmin⟩ := hn
  have hrest := venueStep_rest hstep x
  rw [hst] at hrest
  cases l with
  | contract => exact ⟨st, hrest, hadmin⟩
  | outside => exact ⟨st, hrest, hadmin⟩
  | deploy y =>
    cases hstep with
    | deploy hnone =>
      have hne : y ≠ x := by
        rintro rfl
        rw [hst] at hnone
        cases hnone
      rw [VenueLabel.configure, if_neg hne] at hrest
      exact ⟨st, hrest, hadmin⟩
  | adapter y c i o =>
    cases o with
    | err => exact ⟨st, hrest, hadmin⟩
    | trap => exact ⟨st, hrest, hadmin⟩
    | ok v =>
      rw [VenueLabel.configure] at hrest
      split at hrest
      · rename_i hy
        subst hy
        obtain ⟨st₀, hst₀, hallow⟩ := venueStep_allows hstep
        obtain rfl : st = st₀ := Option.some.inj (hst.symm.trans hst₀)
        exact ⟨_, hrest, hallow.admin hadmin⟩
      · exact ⟨st, hrest, hadmin⟩

/-! ## 5. Runs -/

section Runs

variable (h0 : ∀ x, n.world.rest x = none) (hrun : Runs (VenueStep a) n ls n')
include h0 hrun

theorem rest_of_runs (x : Address) : n'.world.rest x = settings ls x := by
  induction hrun with
  | refl => exact h0 x
  | tail _ hl ih =>
    rw [venueStep_rest hl, settings, List.foldl_append, List.foldl_cons, List.foldl_nil, ih]
    rfl

theorem soundVenues_of_runs : SoundVenues n' :=
  hrun.invariant (I := SoundVenues) (fun _ _ _ => soundVenues_step) fun x _ h => by
    rw [h0 x] at h
    cases h

end Runs

/-! ## 6. Running calls -/

/-- A call of one of the contracts or of an exchange, or the deployment of one. -/
inductive VenueCall where
  | contract (call : NetCall Deployments)
  | adapter (T : Tokens Deployments) (c : Ctx) (x : Address) (i : TestAdapter.Invocation)
  | deploy (x : Address)

/-- Make one call; where there is a contract already, none is deployed. -/
def venue (n : Net Deployments) : VenueCall → VenueLabel × Net Deployments
  | .contract call =>
    let r := n.exec call
    (.contract r.1, r.2)
  | .adapter T c x i =>
    let r := callVenue T c x i n.world
    (.adapter x c i r.1, ⟨n.router, n.donations, r.2, c.timestamp, c.sequence⟩)
  | .deploy x =>
    if n.world.rest x = none then
      (.deploy x, { n with world := { n.world with
        rest := Function.update n.world.rest x (some TestAdapter.Store.deployed) } })
    else (.outside, n)

def venueAll : Net Deployments → List VenueCall → List VenueLabel × Net Deployments
  | n, [] => ([], n)
  | n, call :: calls =>
    let r := venue n call
    let rest := venueAll r.2 calls
    (r.1 :: rest.1, rest.2)

/-- The call is made in the ledger `(now, seq)`, at its contract, and the router sees the exchanges
of the network. -/
def VenueCall.At (a : Sites) (now seq : Nat) : VenueCall → Prop
  | .contract call =>
    call.At a now seq ∧ ∀ h c i, call = .router h c i → ∃ T, h = TestAdapter.host T c
  | .adapter _ c x _ => c.self = x ∧ c.timestamp = now ∧ c.sequence = seq
  | .deploy _ => True

theorem exec_here {call : NetCall Deployments}
    (hhost : ∀ h c i, call = .router h c i → ∃ T, h = TestAdapter.host T c) :
    (n.exec call).1.Here := by
  cases call with
  | router h c i =>
    obtain ⟨t, ht, hh, hc, -, -⟩ : ∃ t, (n.atRouter.exec Router.dispatch h c i).1 = .tx t ∧ _ :=
      Chain.exec_tx
    obtain ⟨T, rfl⟩ := hhost h c i rfl
    rw [Net.exec, ht]
    exact ⟨T, by rw [hh, hc]⟩
  | donations T c i =>
    obtain ⟨t, ht, -⟩ : ∃ t, (n.atDonations.exec Donations.dispatch T c i).1 = .tx t ∧ _ :=
      Chain.exec_tx
    rw [Net.exec, ht]
    trivial

theorem venue_step {call : VenueCall} (hat : call.At a n.now n.seq) :
    VenueStep a n (venue n call).1 (venue n call).2 ∧
      (venue n call).2.now = n.now ∧ (venue n call).2.seq = n.seq := by
  cases call with
  | contract call =>
    obtain ⟨hstep, hnow, hseq⟩ := Net.exec_step hat.1
    exact ⟨.contract hstep (exec_here hat.2), hnow, hseq⟩
  | adapter T c x i =>
    obtain ⟨hself, hnow, hseq⟩ := hat
    exact ⟨.adapter hself (le_of_eq hnow.symm) (le_of_eq hseq.symm) rfl, hnow, hseq⟩
  | deploy x =>
    by_cases hx : n.world.rest x = none
    · rw [venue, if_pos hx]
      exact ⟨.deploy hx, rfl, rfl⟩
    · rw [venue, if_neg hx]
      exact ⟨.outside (le_refl _) (le_refl _) rfl, rfl, rfl⟩

theorem venueAll_runs : ∀ (calls : List VenueCall) (n : Net Deployments),
    (∀ call ∈ calls, call.At a n.now n.seq) →
      Runs (VenueStep a) n (venueAll n calls).1 (venueAll n calls).2
  | [], n, _ => .refl n
  | call :: calls, n, hall => by
    obtain ⟨hat, hrest⟩ := List.forall_mem_cons.mp hall
    obtain ⟨hstep, hnow, hseq⟩ := venue_step hat
    have hruns := venueAll_runs calls (venue n call).2 fun x hx => by
      rw [hnow, hseq]
      exact hrest x hx
    exact (Runs.single hstep).append hruns

theorem venueAll_snoc (calls : List VenueCall) (call : VenueCall) : ∀ n : Net Deployments,
    (venueAll n (calls ++ [call])).1
      = (venueAll n calls).1 ++ [(venue (venueAll n calls).2 call).1] := by
  induction calls with
  | nil => exact fun _ => rfl
  | cons call' calls ih => exact fun n => congrArg (List.cons _) (ih _)

namespace Market

open TestAdapter.Fixture

def sites : Sites := { router := routerId, donations := ⟨10⟩ }

/-- Everybody is funded, and nothing but the router is deployed. -/
def empty : Net Deployments :=
  { router := Router.Store.deployed 10000
    donations := Donations.Store.undeployed 10000
    world := { ledger := funded.world.ledger, rest := fun _ => none }
    now := 1000
    seq := 1 }

def ctxAdapter : Ctx := { ctx with self := adapterId }

/-- The adapter is set up, and misconfigured by the trader in vain. -/
def setup : List VenueCall :=
  [.deploy adapterId,
    .adapter Tokens.standard ctxAdapter adapterId (.initializeAdapter admin),
    .adapter Tokens.standard ctxAdapter adapterId (.setRate admin pool 3 2),
    .adapter Tokens.standard ctxAdapter adapterId (.setRate trader pool 1 1),
    .contract (.router chain ctx (.initializeRouter admin)),
    .contract (.router chain ctx (.setProtocol ⟨"test"⟩ adapterId))]

def calls : List VenueCall := setup ++ [.contract (.router chain ctx (.swap twoHops))]

theorem calls_at : ∀ call ∈ calls, call.At sites empty.now empty.seq := by
  intro call hcall
  have hhost : ∀ {h c i} {j : Router.Invocation}, NetCall.router chain ctx j = .router h c i →
      ∃ T, h = TestAdapter.host T c := by
    rintro _ _ _ _ heq
    cases heq
    exact ⟨Tokens.standard, rfl⟩
  simp only [calls, setup, List.cons_append, List.nil_append, List.mem_cons, List.not_mem_nil,
    or_false] at hcall
  rcases hcall with rfl | rfl | rfl | rfl | rfl | rfl | rfl
  · trivial
  · exact ⟨rfl, rfl, rfl⟩
  · exact ⟨rfl, rfl, rfl⟩
  · exact ⟨rfl, rfl, rfl⟩
  · exact ⟨⟨rfl, rfl, rfl⟩, fun _ _ _ => hhost⟩
  · exact ⟨⟨rfl, rfl, rfl⟩, fun _ _ _ => hhost⟩
  · exact ⟨⟨rfl, rfl, rfl⟩, fun _ _ _ => hhost⟩

theorem runs : Runs (VenueStep sites) empty (venueAll empty calls).1 (venueAll empty calls).2 :=
  venueAll_runs calls empty calls_at

end Market

/-! ## 7. The history decides -/

/-- **The exchanges are configured by their admins.**  In every run from a network without
exchanges, the settings of each are those of its history and are sound, every call of it that
returned was allowed by the settings that the history had left before it, and the admin that the
history has given it at any point is still the admin at the end. -/
theorem venues_configured (h0 : ∀ x, n.world.rest x = none)
    (hrun : Runs (VenueStep a) n ls n') (x : Address) :
    n'.world.rest x = settings ls x ∧
    (∀ st, n'.world.rest x = some st → st.Sound) ∧
    (∀ ks c i v ms, ls = ks ++ .adapter x c i (.ok v) :: ms →
      ∃ st, settings ks x = some st ∧ st.Allows c i) ∧
    ∀ ks ms st admin, ls = ks ++ ms → settings ks x = some st → st.admin = some admin →
      ∃ st', n'.world.rest x = some st' ∧ st'.admin = some admin := by
  refine ⟨rest_of_runs h0 hrun x, soundVenues_of_runs h0 hrun x, ?_, ?_⟩
  · rintro ks c i v ms rfl
    obtain ⟨n₁, n₂, hpre, hstep, -⟩ := hrun.split_at
    rw [← rest_of_runs h0 hpre x]
    exact venueStep_allows hstep
  · rintro ks ms st admin rfl hst hadmin
    obtain ⟨n₁, hpre, hpost⟩ := hrun.split
    exact hpost.invariant (I := Administered x admin) (fun _ _ _ => administered_step)
      ⟨st, (rest_of_runs h0 hpre x).trans hst, hadmin⟩

theorem venues_configured_market :
    ((venueAll Market.empty Market.calls).2.world.rest TestAdapter.Fixture.adapterId).map
        (fun st => st.rateOf TestAdapter.Fixture.pool) = some (3, 2) := by
  rw [(venues_configured (fun _ => rfl) Market.runs TestAdapter.Fixture.adapterId).1]
  decide +kernel

/-- **What a swap returns is a matter of history.**  In every run from a network without exchanges
and a new router, a swap of a trader who is no exchange that returned `v` computed `v` at the rates
that the histories of the exchanges had left, over the adapters that the router's log had left. -/
theorem swaps_at_settings {until_ : Nat} (h0 : ∀ x, n.world.rest x = none)
    (hrouter : n.router = Router.Store.deployed until_) (hrun : Runs (VenueStep a) n ls n') :
    ∀ ks t ms p v, ls = ks ++ .contract (.router t) :: ms → t.call = .swap p →
      t.outcome = .ok (.amount v) → settings ks p.trader = none →
      v = p.path.foldl
        (Router.outputAt (Router.replay (Kit.journal (ks.map VenueLabel.toRouter))).adapters
          (settings ks)) p.amountIn := by
  intro ks t ms p v hls hcall hout htrader
  subst hls
  obtain ⟨n₁, n₂, hpre, hstep, -⟩ := hrun.split_at
  have hrest : n₁.world.rest = settings ks := funext (rest_of_runs h0 hpre)
  have hconfig : (Router.replay (Kit.journal (ks.map VenueLabel.toRouter))).adapters
      = n₁.router.adapterOf := by
    have hruns := Router.runs_journal (hpre.project Net.atRouter VenueLabel.toRouter
      fun _ _ _ => venueStep_atRouter)
    have hempty : n.atRouter.store.config = Router.Config.empty := by
      rw [Net.atRouter, hrouter]
      rfl
    rw [hempty] at hruns
    exact congrArg Router.Config.adapters (Router.foldl_of_runs hruns)
  have hsound := soundVenues_of_runs h0 hpre
  cases hstep with
  | contract h hl =>
    cases h with
    | router h =>
      have hv := Router.step_computes h hl hcall hout (by
        rw [Net.atRouter, hrest]
        exact htrader) hsound
      rw [hconfig, ← hrest]
      exact hv

theorem Market.swap_label : ∃ t,
    (venueAll Market.empty Market.calls).1
        = (venueAll Market.empty Market.setup).1 ++ [.contract (.router t)] ∧
      t.call = .swap TestAdapter.Fixture.twoHops ∧ t.outcome = .ok (.amount 1500) := by
  obtain ⟨t, ht, hcall, hout⟩ := (venueAll Market.empty Market.setup).2.exec_router
    (h := TestAdapter.Fixture.chain) (c := TestAdapter.Fixture.ctx)
    (i := .swap TestAdapter.Fixture.twoHops)
  refine ⟨t, ?_, hcall, hout.trans (by decide +kernel)⟩
  rw [Market.calls, venueAll_snoc, venue, ht]

/-- 1000 at the rate 3 to 2, then at 1 to 1. -/
theorem swaps_at_settings_market :
    (1500 : Int) = TestAdapter.Fixture.twoHops.path.foldl
      (Router.outputAt (Router.replay (Kit.journal
          ((venueAll Market.empty Market.setup).1.map VenueLabel.toRouter))).adapters
        (settings (venueAll Market.empty Market.setup).1)) 1000 := by
  obtain ⟨t, hls, hcall, hout⟩ := Market.swap_label
  exact swaps_at_settings (fun _ => rfl) rfl Market.runs _ t [] _ _ hls hcall hout
    (Option.isNone_iff_eq_none.mp (by decide +kernel))

end Stellariq.Network
