/-
# The router's events as a statement of account

The event log of the router says what its swaps did to everybody's balances, provided that the
adapters are honest about one thing: outside the accounts that belong to the exchanges (`V`), all
that a call does is to deliver (`AdapterCall.Clean`).  Then

* of an account outside `V` the `SwapExecuted` records say everything (`traderReader`): the
  hop records are between the router and the exchanges, and the router's own account shows nothing;
* of the accounts in `V` together the `HopExecuted` records say everything (`venueReader`), when
  tokens are neither made nor destroyed by the calls.

Both are inductions over the settled route.
-/
import Stellariq.Router.Transactions
import Stellariq.Kit.Statement

namespace Stellariq.Router

open Kit

variable {σ : Type} {h : Host σ} {c : Ctx} {self : Address} {V : Set Address}

/-! ## 1. Two readers -/

/-- A settled swap costs its trader the input and brings the output. -/
def traderReader : Reader Unit RouterEvent Address Address where
  next _ _ := ()
  flow _ e t x :=
    match e with
    | .swapExecuted e =>
      Ledger.point e.tokenOut e.trader e.amountOut t x -
        Ledger.point e.tokenIn e.trader e.amountIn t x
    | _ => 0

/-- A settled hop brings the exchanges its input and costs them the output. -/
def venueReader : Reader Unit RouterEvent Address Unit where
  next _ _ := ()
  flow _ e t _ :=
    match e with
    | .hopExecuted e =>
      (if t = e.tokenIn then e.amountIn else 0) - if t = e.tokenOut then e.amountOut else 0
    | _ => 0

/-- Events without an execution id are booked as nothing. -/
theorem traderReader_quiet {es : List RouterEvent} (hes : ∀ e ∈ es, e.executionId? = none)
    (t x : Address) : traderReader.statement t x () es = 0 := by
  refine Reader.statement_eq_zero _ _ _ (fun e he g => ?_) ()
  cases e with
  | swapExecuted => cases hes _ he
  | _ => rfl

theorem venueReader_quiet {es : List RouterEvent} (hes : ∀ e ∈ es, e.executionId? = none)
    (t : Address) : venueReader.statement t () () es = 0 := by
  refine Reader.statement_eq_zero _ _ _ (fun e he g => ?_) ()
  cases e with
  | hopExecuted => cases hes _ he
  | _ => rfl

/-! ## 2. Clean calls -/

/-- Outside `V` the call only delivered: no balance but the recipient's is another one, and that by
what was delivered. -/
structure AdapterCall.Clean (V : Set Address) (x : AdapterCall) : Prop where
  adapter : x.adapter ∈ V
  others : ∀ t y, y ∉ V → x.after.bal t y =
    x.before.bal t y + Ledger.point x.args.tokenOut x.args.recipient x.delivered t y

/-- The call neither made nor destroyed tokens. -/
def AdapterCall.Conserves (x : AdapterCall) : Prop :=
  ∀ t, Cancels fun y => x.after.bal t y - x.before.bal t y

/-- The exchanges paid for what a clean call delivered. -/
theorem AdapterCall.Clean.venues {V : Finset Address} {x : AdapterCall}
    (hclean : x.Clean ↑V) (hrec : x.args.recipient ∉ V) (hcons : x.Conserves) (t : Address) :
    ∑ y ∈ V, x.after.bal t y
      = ∑ y ∈ V, x.before.bal t y - if t = x.args.tokenOut then x.delivered else 0 := by
  have hout : ∀ y, y ∉ V → x.after.bal t y - x.before.bal t y
      = Ledger.point x.args.tokenOut x.args.recipient x.delivered t y := by
    intro y hy
    have := hclean.others t y (by simpa using hy)
    omega
  have hgroup := (hcons t).group hrec fun y hy hne =>
    (hout y hy).trans (Ledger.point_of_holder_ne hne ..)
  rw [Finset.sum_sub_distrib, hout _ hrec] at hgroup
  simp only [Ledger.point, and_true] at hgroup
  omega

/-- **Test adapters are clean**: all they do is to pay the recipient. -/
theorem testAdapter_clean {T : Tokens TestAdapter.Deployments} {c₀ : Ctx}
    {reg : Symbol → Option Address} {recipient : Address} {step : SwapStep}
    {w w' : World TestAdapter.Deployments} {a : Int} {x : AdapterCall}
    (hx : HopSettles (TestAdapter.host T c₀) c reg recipient step w a x w')
    (hadapter : x.adapter ∈ V) (hrec : recipient ∉ V) : x.Clean V ∧ x.Conserves := by
  obtain ⟨w₁, r, _, hbefore, _, hcall, _⟩ := hx.called
  rw [callAdapter, if_neg hx.adapter_ne] at hcall
  obtain ⟨_, _, _, _, out, _, hpay, _⟩ := TestAdapter.invoke_eq_ok.mp hcall
  rw [hx.args] at hpay
  have hbal : ∀ t y, x.after.bal t y = x.before.bal t y +
      Ledger.point step.tokenOut recipient out t y -
        Ledger.point step.tokenOut x.adapter out t y := by
    intro t y
    rw [hx.after, hbefore]
    exact World.bal_pay hpay t y
  have hne : recipient ≠ x.adapter := fun he => hrec (he ▸ hadapter)
  have hdelivered : x.delivered = out := by
    rw [AdapterCall.delivered, hx.args, hbal, Ledger.point_self, Ledger.point_of_holder_ne hne]
    omega
  refine ⟨⟨hadapter, fun t y hy => ?_⟩, fun t => ?_⟩
  · have hy' : y ≠ x.adapter := fun he => hy (he ▸ hadapter)
    rw [hbal, Ledger.point_of_holder_ne hy', hx.args, hdelivered, sub_zero]
  · have hmove := cancels_move step.tokenOut t x.adapter recipient out
    have hsame : (fun y => x.after.bal t y - x.before.bal t y) = fun y =>
        Ledger.point step.tokenOut recipient out t y -
          Ledger.point step.tokenOut x.adapter out t y := by
      funext y
      rw [hbal]
      omega
    rw [hsame]
    exact hmove

/-! ## 3. Routes -/

section Routes

variable {reg : Symbol → Option Address} {dest recipient : Address} {step : SwapStep}
  {steps : List SwapStep} {w w' : World σ} {a v : Int} {x : AdapterCall} {xs : List AdapterCall}

/-- **One hop**, at an account outside the exchanges. -/
theorem HopSettles.bal_outside (hx : HopSettles h c reg recipient step w a x w')
    (hclean : x.Clean V) {y : Address} (hy : y ∉ V) (t : Address) :
    w'.bal t y = w.bal t y - Ledger.point step.tokenIn c.self a t y +
      Ledger.point step.tokenOut recipient x.delivered t y := by
  obtain ⟨w₁, _, hpay, hbefore, _⟩ := hx.called
  have hne : y ≠ x.adapter := fun he => hy (he ▸ hclean.adapter)
  have h1 := World.bal_pay hpay t y
  have h2 := hclean.others t y hy
  rw [Ledger.point_of_holder_ne hne] at h1
  rw [hx.args, hx.after, hbefore] at h2
  calc w'.bal t y = w₁.bal t y + Ledger.point step.tokenOut recipient x.delivered t y := h2
    _ = _ := by rw [h1]; omega

/-- **A route**, at an account outside the exchanges: what enters it leaves the router, and what
comes out of it is with the destination; a route without steps leaves it with the router. -/
theorem Settles.bal_outside (hs : Settles h c reg dest steps w a xs w' v) {b b' : Address}
    (hchain : Chained b steps b') (hclean : ∀ x ∈ xs, x.Clean V) {y : Address} (hy : y ∉ V)
    (t : Address) :
    w'.bal t y = w.bal t y - Ledger.point b c.self a t y +
      Ledger.point b' (if steps = [] then c.self else dest) v t y := by
  induction hs generalizing b with
  | nil =>
    obtain rfl : b = b' := hchain
    rw [if_pos rfl]
    omega
  | @cons step steps w₀ w₁ w₂ a v x xs hhop hrest ih =>
    obtain ⟨rfl, -, hchain⟩ := hchain
    rw [List.forall_mem_cons] at hclean
    have h1 := hhop.bal_outside hclean.1 hy t
    have h2 := ih hchain hclean.2
    rw [if_neg (List.cons_ne_nil step steps)]
    by_cases hnil : steps = []
    · subst hnil
      cases hrest
      obtain rfl : step.tokenOut = b' := hchain
      rw [if_pos rfl] at h1
      exact h1
    · rw [if_neg hnil] at h1 h2
      omega

/-- **One hop**, at the exchanges together. -/
theorem HopSettles.bal_venues {V : Finset Address}
    (hx : HopSettles h c reg recipient step w a x w') (hclean : x.Clean ↑V) (hself : c.self ∉ V)
    (hrec : recipient ∉ V) (hcons : x.Conserves) (t : Address) :
    ∑ y ∈ V, w'.bal t y = ∑ y ∈ V, w.bal t y + (if t = step.tokenIn then a else 0) -
      if t = step.tokenOut then x.delivered else 0 := by
  obtain ⟨w₁, _, hpay, hbefore, _⟩ := hx.called
  have hadapter : x.adapter ∈ V := by simpa using hclean.adapter
  have hforward : ∑ y ∈ V, w₁.bal t y
      = ∑ y ∈ V, w.bal t y + if t = step.tokenIn then a else 0 := by
    have hpoint : ∀ y ∈ V, w₁.bal t y
        = w.bal t y + Ledger.point step.tokenIn x.adapter a t y := by
      intro y hy
      have hne : y ≠ c.self := fun he => hself (he ▸ hy)
      rw [World.bal_pay hpay, Ledger.point_of_holder_ne hne, sub_zero]
    rw [Finset.sum_congr rfl hpoint, Finset.sum_add_distrib,
      Finset.sum_eq_single_of_mem x.adapter hadapter fun y _ hne =>
        Ledger.point_of_holder_ne hne ..]
    simp [Ledger.point]
  have hcall := hclean.venues (by rw [hx.args]; exact hrec) hcons t
  rw [hx.after, hbefore, hx.args] at hcall
  calc ∑ y ∈ V, w'.bal t y
      = ∑ y ∈ V, w₁.bal t y - if t = step.tokenOut then x.delivered else 0 := hcall
    _ = _ := by rw [hforward]

/-- **A route**, at the exchanges together: the hop records say what became of their holdings. -/
theorem Settles.bal_venues {V : Finset Address} {trader : Address} {executionId : Nat}
    (hs : Settles h c reg dest steps w a xs w' v) (hself : c.self ∉ V) (hdest : dest ∉ V)
    (hclean : ∀ x ∈ xs, x.Clean ↑V ∧ x.Conserves) (t : Address) (i : Nat) :
    ∑ y ∈ V, w'.bal t y = ∑ y ∈ V, w.bal t y + venueReader.statement t () ()
      ((routeRecords executionId trader i steps xs).map .hopExecuted) := by
  induction hs generalizing i with
  | nil => exact (add_zero _).symm
  | @cons step steps w₀ w₁ w₂ a v x xs hhop hrest ih =>
    rw [List.forall_mem_cons] at hclean
    have hrec : (if steps = [] then dest else c.self) ∉ V := by
      split
      · exact hdest
      · exact hself
    have hamount : x.args.amountIn = a := by rw [hhop.args]
    have h1 := hhop.bal_venues hclean.1.1 hself hrec hclean.1.2 t
    have h2 := ih hclean.2 (i + 1)
    have hrecord : venueReader.flow () (.hopExecuted (hopRecord executionId trader i step x)) t ()
        = (if t = step.tokenIn then a else 0) - if t = step.tokenOut then x.delivered else 0 := by
      rw [← hamount]
      rfl
    have hread : venueReader.statement t () ()
        ((routeRecords executionId trader i (step :: steps) (x :: xs)).map .hopExecuted)
        = venueReader.flow () (.hopExecuted (hopRecord executionId trader i step x)) t () +
          venueReader.statement t () ()
            ((routeRecords executionId trader (i + 1) steps xs).map .hopExecuted) := rfl
    rw [hread, hrecord, h2, h1]
    omega

/-- **A swap**, at an account outside the exchanges: the trader gave the input and got the
output, and nobody else noticed. -/
theorem Settles.swap_bal {p : SwapParams} {s : State σ} {w₁ : World σ} (had : Admitted h c p s)
    (hpay : s.world.pay h.toTokens p.tokenIn p.trader c.self p.amountIn = some w₁)
    (hset : Settles h c reg p.trader p.path w₁ p.amountIn xs w' v)
    (hclean : ∀ x ∈ xs, x.Clean V) {y : Address} (hy : y ∉ V) (t : Address) :
    w'.bal t y = s.world.bal t y + Ledger.point p.tokenOut p.trader v t y -
      Ledger.point p.tokenIn p.trader p.amountIn t y := by
  have hpull := World.bal_pay hpay t y
  have hroute := hset.bal_outside had.chained hclean hy t
  rw [if_neg (List.ne_nil_of_length_pos had.nonempty)] at hroute
  omega

end Routes

/-! ## 4. Calls -/

/-- **What the entrypoints other than `swap` do**: they move nothing, call nobody, and their events
carry no execution id. -/
theorem Performs.quiet {i : Invocation} {v : Value} {s s' : State σ}
    (hp : Performs h c s i v s') (hi : ∀ p, i ≠ .swap p) :
    s'.world = s.world ∧ ∃ ops, s'.log = s.log ++ ops ∧ callsOf ops = [] ∧ transfersOf ops = [] ∧
      ∀ e ∈ eventsOf ops, e.executionId? = none := by
  cases hp with
  | view => exact ⟨rfl, [], (List.append_nil _).symm, rfl, rfl, by simp [eventsOf]⟩
  | swap => exact absurd rfl (hi _)
  | _ =>
    refine ⟨rfl, _, rfl, rfl, rfl, ?_⟩
    simp [eventsOf, HostOp.event?, RouterEvent.executionId?]

/-- **The statement of an account outside the exchanges**, for one call. -/
theorem Performs.traderStatement {i : Invocation} {v : Value} {s s' : State σ}
    (hp : Performs h c s i v s') :
    ∃ ops, s'.log = s.log ++ ops ∧ ((∀ x ∈ callsOf ops, x.Clean V) → ∀ t y, y ∉ V →
      s'.world.bal t y = s.world.bal t y + traderReader.statement t y () (eventsOf ops)) := by
  by_cases hi : ∀ p, i ≠ .swap p
  · obtain ⟨hworld, ops, hlog, -, -, hev⟩ := hp.quiet hi
    exact ⟨ops, hlog, fun _ t y _ => by rw [hworld, traderReader_quiet hev, add_zero]⟩
  · push Not at hi
    obtain ⟨p, rfl⟩ := hi
    cases hp with
    | view hview => cases hview
    | @swap p v w₁ w' xs had _ hpay hset _ =>
      refine ⟨_, rfl, fun hclean t y hy => ?_⟩
      rw [callsOf_swapOps hset.length_eq] at hclean
      have hbal := Settles.swap_bal had hpay hset hclean hy t
      have hhops : traderReader.statement t y ()
          ((routeRecords (s.store.nonce.getD 0 + 1) p.trader 0 p.path xs).map .hopExecuted) = 0 :=
        Reader.statement_eq_zero _ _ _ (fun e he _ => by
          obtain ⟨_, -, rfl⟩ := List.mem_map.mp he
          rfl) ()
      have hsum : traderReader.flow () (.swapExecuted
            (swapRecord c p (s.store.nonce.getD 0 + 1) v)) t y
          = Ledger.point p.tokenOut p.trader v t y -
            Ledger.point p.tokenIn p.trader p.amountIn t y := rfl
      rw [eventsOf_swapOps, Reader.statement_append, hhops, Reader.statement_singleton, hsum]
      show w'.bal t y = _
      omega

/-- **The statement of the exchanges**, for one call, when the trader is not one of them. -/
theorem Performs.venueStatement {V : Finset Address} {i : Invocation} {v : Value} {s s' : State σ}
    (hp : Performs h c s i v s') (hself : c.self ∉ V) (htrader : ∀ p, i = .swap p → p.trader ∉ V) :
    ∃ ops, s'.log = s.log ++ ops ∧ ((∀ x ∈ callsOf ops, x.Clean ↑V ∧ x.Conserves) →
      ∀ t, ∑ y ∈ V, s'.world.bal t y
        = ∑ y ∈ V, s.world.bal t y + venueReader.statement t () () (eventsOf ops)) := by
  by_cases hi : ∀ p, i ≠ .swap p
  · obtain ⟨hworld, ops, hlog, -, -, hev⟩ := hp.quiet hi
    exact ⟨ops, hlog, fun _ t => by rw [hworld, venueReader_quiet hev, add_zero]⟩
  · push Not at hi
    obtain ⟨p, rfl⟩ := hi
    cases hp with
    | view hview => cases hview
    | @swap p v w₁ w' xs had _ hpay hset _ =>
      refine ⟨_, rfl, fun hclean t => ?_⟩
      rw [callsOf_swapOps hset.length_eq] at hclean
      have hp : p.trader ∉ V := htrader p rfl
      -- the pull is between the trader and the router
      have hpull : ∑ y ∈ V, w₁.bal t y = ∑ y ∈ V, s.world.bal t y := by
        refine Finset.sum_congr rfl fun y hy => ?_
        have h1 : y ≠ c.self := fun he => hself (he ▸ hy)
        have h2 : y ≠ p.trader := fun he => hp (he ▸ hy)
        rw [World.bal_pay hpay, Ledger.point_of_holder_ne h1, Ledger.point_of_holder_ne h2]
        omega
      have hsum : venueReader.flow () (.swapExecuted
          (swapRecord c p (s.store.nonce.getD 0 + 1) v)) t () = 0 := rfl
      rw [eventsOf_swapOps, Reader.statement_append, Reader.statement_singleton, hsum, add_zero,
        ← hpull]
      exact hset.bal_venues hself hp hclean t 0

/-! ## 5. Steps -/

section Steps

variable {b b' : Chain Store σ}

/-- Who was called: the adapters of the registry, from which the deliveries went to the router and
to the trader. -/
theorem step_testAdapters {T : Tokens TestAdapter.Deployments} {c₀ : Ctx}
    {b b' : Chain Store TestAdapter.Deployments} {t : Tx (Host TestAdapter.Deployments) Invocation
      Value DataKey RouterEvent AdapterCall RouterError}
    (hstep : Step self b (.tx t) b') (hhost : t.host = TestAdapter.host T c₀)
    (hreg : ∀ p x, b.store.adapterOf p = some x → x ∈ V) (hself : self ∉ V)
    (htrader : ∀ p, t.call = .swap p → p.trader ∉ V) :
    ∀ x ∈ callsOf t.ops, x.Clean V ∧ x.Conserves := by
  cases hstep with
  | failed => simp [callsOf]
  | @returned h c i v s hc _ _ hd =>
    obtain rfl : h = TestAdapter.host T c₀ := hhost
    have hp := dispatch_performs hd
    intro x hx
    by_cases hi : ∀ p, i ≠ .swap p
    · obtain ⟨-, ops, hlog, hcalls, -⟩ := hp.quiet hi
      obtain rfl : _ = ops := hlog
      have hx' : x ∈ callsOf s.log := hx
      rw [hcalls] at hx'
      cases hx'
    · push Not at hi
      obtain ⟨p, rfl⟩ := hi
      cases hp with
      | view hview => cases hview
      | @swap _ _ w₁ w' xs had _ _ hset _ =>
        have hx' : x ∈ callsOf (swapOps c p _ xs _) := hx
        rw [callsOf_swapOps hset.length_eq] at hx'
        obtain ⟨k, hk⟩ := List.getElem?_of_mem hx'
        obtain ⟨step, hstep⟩ : ∃ step, p.path[k]? = some step := by
          have hlt := (List.getElem?_eq_some_iff.mp hk).1
          rw [hset.length_eq] at hlt
          exact ⟨_, List.getElem?_eq_getElem hlt⟩
        obtain ⟨_, _, _, hhop⟩ := hset.get hstep hk
        refine testAdapter_clean hhop (hreg _ _ hhop.registered) ?_
        split
        · exact htrader p rfl
        · rw [hc]
          exact hself

theorem step_traderStatement {x : Tx (Host σ) Invocation Value DataKey RouterEvent AdapterCall
    RouterError} (hstep : Step self b (.tx x) b') (hclean : ∀ y ∈ callsOf x.ops, y.Clean V)
    {y : Address} (hy : y ∉ V) (t : Address) :
    b'.world.bal t y = b.world.bal t y + traderReader.statement t y () (eventsOf x.ops) := by
  cases hstep with
  | returned _ _ _ hd =>
    obtain ⟨ops, hlog, hbal⟩ := (dispatch_performs hd).traderStatement (V := V)
    obtain rfl : _ = ops := hlog
    exact hbal hclean t y hy
  | failed => exact (add_zero _).symm

/-- **The router's own account shows nothing**: it never trades with itself. -/
theorem step_ownStatement {x : Tx (Host σ) Invocation Value DataKey RouterEvent AdapterCall
    RouterError} (hstep : Step self b (.tx x) b') :
    ∀ e ∈ eventsOf x.ops, ∀ t g, traderReader.flow g e t self = 0 := by
  have hquiet : ∀ e : RouterEvent, (∀ r, e = .swapExecuted r → r.trader ≠ self) →
      ∀ t g, traderReader.flow g e t self = 0 := by
    intro e he t g
    cases e with
    | swapExecuted r =>
      have hne : self ≠ r.trader := (he r rfl).symm
      simp [traderReader, Ledger.point_of_holder_ne hne]
    | _ => rfl
  cases hstep with
  | @returned h c i v s hc _ _ hd =>
    have hp := dispatch_performs hd
    intro e he
    refine hquiet e ?_
    rintro r rfl
    by_cases hi : ∀ p, i ≠ .swap p
    · obtain ⟨-, ops, hlog, -, -, hev⟩ := hp.quiet hi
      obtain rfl : _ = ops := hlog
      cases hev _ he
    · push Not at hi
      obtain ⟨p, rfl⟩ := hi
      cases hp with
      | view hview => cases hview
      | @swap _ _ _ _ xs had =>
        have he' : RouterEvent.swapExecuted r ∈ eventsOf (swapOps c p _ xs _) := he
        rw [eventsOf_swapOps, List.mem_append, List.mem_singleton] at he'
        rcases he' with he' | he'
        · obtain ⟨_, -, hbad⟩ := List.mem_map.mp he'
          cases hbad
        · cases he'
          rw [← hc]
          exact had.authorized.1
  | failed =>
    intro e he
    cases he

theorem step_venueStatement {V : Finset Address} {x : Tx (Host σ) Invocation Value DataKey
    RouterEvent AdapterCall RouterError} (hstep : Step self b (.tx x) b') (hself : self ∉ V)
    (htrader : ∀ p, x.call = .swap p → p.trader ∉ V)
    (hclean : ∀ y ∈ callsOf x.ops, y.Clean ↑V ∧ y.Conserves) (t : Address) :
    ∑ y ∈ V, b'.world.bal t y
      = ∑ y ∈ V, b.world.bal t y + venueReader.statement t () () (eventsOf x.ops) := by
  cases hstep with
  | returned hc _ _ hd =>
    obtain ⟨ops, hlog, hbal⟩ := (dispatch_performs hd).venueStatement (hc ▸ hself) htrader
    obtain rfl : _ = ops := hlog
    exact hbal hclean t
  | failed => exact (add_zero _).symm

end Steps

end Stellariq.Router
