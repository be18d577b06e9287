/-
# Minimums and the deadline are filters

A request carries bounds that only say when to give up: the minimum of every hop, the minimum of
the whole swap and the deadline.  `minimums_filter` says that this is all they do.  Of two
requests that differ in their bounds only, where the second one's are looser, whatever the first
achieves the second achieves as well, with the same result, events and balances; and what the
second achieves the first either achieves or gives up with `InsufficientOutput`, exactly when a
delivery, or the result, is below its bound.

The adapters are handed the hop minimums, so it is assumed of those on the route that they do not
look at them (`MinBlind`).  Then a settled route settles under any other minimums that its
deliveries meet (`Settles.withMins`), in either direction.  What is left is the run in which a
delivery does not: the hops before it settle, and it gives up at its check (`hop_short`).
-/
import Stellariq.Router.Events

namespace Stellariq.Router

open Kit

variable {σ : Type} {h : Host σ} {c : Ctx} {reg : Symbol → Option Address} {dest : Address}

/-! ## 1. Requests that differ in their bounds -/

/-- The step, with another minimum. -/
def withMin (m : Int) (step : SwapStep) : SwapStep := { step with amountOutMin := m }

/-- The call, with another minimum. -/
def AdapterCall.withMin (m : Int) (x : AdapterCall) : AdapterCall :=
  { x with args := { x.args with amountOutMin := m } }

/-- The steps differ in their minimums at most. -/
def SameSteps (steps steps' : List SwapStep) : Prop :=
  List.Forall₂ (fun step step' => step' = withMin step'.amountOutMin step) steps steps'

/-- The requests differ in their bounds at most. -/
structure SameRequest (p q : SwapParams) : Prop where
  trader : q.trader = p.trader
  tokenIn : q.tokenIn = p.tokenIn
  tokenOut : q.tokenOut = p.tokenOut
  amountIn : q.amountIn = p.amountIn
  path : SameSteps p.path q.path

/-- The second minimums are not above the first, and not negative. -/
def LooserSteps (steps steps' : List SwapStep) : Prop :=
  List.Forall₂ (fun step step' : SwapStep =>
    0 ≤ step'.amountOutMin ∧ step'.amountOutMin ≤ step.amountOutMin) steps steps'

/-- The bounds of `q` are looser than those of `p`, and ones that a request may have. -/
structure Loosens (p q : SwapParams) : Prop extends SameRequest p q where
  amountOutMin_pos : 0 < q.amountOutMin
  amountOutMin_le : q.amountOutMin ≤ p.amountOutMin
  deadline_le : p.deadline ≤ q.deadline
  minimums : LooserSteps p.path q.path

/-- The adapter does not look at the minimum it is given. -/
def MinBlind (h : Host σ) (adapter : Address) : Prop :=
  ∀ args m w, h.adapterSwap adapter { args with amountOutMin := m } w =
    h.adapterSwap adapter args w

/-- The deliveries of the adapter calls that were made between two states. -/
def deliveries (s s' : State σ) : List Int := (callsOf (s.since s')).map AdapterCall.delivered

/-- A delivery is below the minimum of its hop, or the result below the minimum of the swap. -/
def Short (p : SwapParams) (ds : List Int) (v : Int) : Prop :=
  (∃ step d, (step, d) ∈ p.path.zip ds ∧ d < step.amountOutMin) ∨ v < p.amountOutMin

/-- The two runs left the same storage, world and events. -/
structure SameEnd (s s' : State σ) : Prop where
  store : s'.store = s.store
  world : s'.world = s.world
  events : eventsOf s'.log = eventsOf s.log

theorem SameSteps.symm {steps steps' : List SwapStep} (hsame : SameSteps steps steps') :
    SameSteps steps' steps := by
  induction hsame with
  | nil => exact .nil
  | cons hstep _ ih =>
    refine .cons ?_ ih
    rw [hstep]
    rfl

theorem SameRequest.symm {p q : SwapParams} (hsame : SameRequest p q) : SameRequest q p :=
  ⟨hsame.trader.symm, hsame.tokenIn.symm, hsame.tokenOut.symm, hsame.amountIn.symm,
    hsame.path.symm⟩

theorem SameEnd.symm {s s' : State σ} (hend : SameEnd s s') : SameEnd s' s :=
  ⟨hend.store.symm, hend.world.symm, hend.events.symm⟩

theorem SameSteps.protocols {steps steps' : List SwapStep} (hsame : SameSteps steps steps') :
    steps'.map SwapStep.protocol = steps.map SwapStep.protocol := by
  induction hsame with
  | nil => rfl
  | cons hstep _ ih => rw [List.map_cons, List.map_cons, ih, hstep]; rfl

/-- A step of one route is registered where the step of the other is. -/
theorem SameSteps.exists_mem {steps steps' : List SwapStep} (hsame : SameSteps steps steps')
    {step' : SwapStep} (hmem : step' ∈ steps') :
    ∃ step ∈ steps, step.protocol = step'.protocol := by
  have hprotocol : step'.protocol ∈ steps.map SwapStep.protocol := by
    rw [← hsame.protocols]
    exact List.mem_map_of_mem hmem
  exact List.mem_map.mp hprotocol

/-- **The shape of a route** does not depend on its minimums. -/
theorem Chained.withMins {a b : Address} {steps steps' : List SwapStep}
    (hchain : Chained a steps b) (hsame : SameSteps steps steps')
    (hmin : ∀ step ∈ steps', 0 ≤ step.amountOutMin) : Chained a steps' b := by
  induction hsame generalizing a with
  | nil => exact hchain
  | cons hstep _ ih =>
    obtain ⟨hin, -, hrest⟩ := hchain
    obtain ⟨hnonneg, hmin⟩ := List.forall_mem_cons.mp hmin
    refine ⟨?_, hnonneg, ?_⟩
    · rw [hstep]
      exact hin
    · rw [hstep]
      exact ih hrest hmin

/-- **The guards**, for a request with other bounds. -/
theorem Admitted.withBounds {p q : SwapParams} {s : State σ} (had : Admitted h c p s)
    (hsame : SameRequest p q) (hpos : 0 < q.amountOutMin) (htimely : c.timestamp ≤ q.deadline)
    (hmin : ∀ step ∈ q.path, 0 ≤ step.amountOutMin) : Admitted h c q s where
  initialized := had.initialized
  unpaused := had.unpaused
  authorized := by rw [hsame.trader]; exact had.authorized
  amountIn_pos := by rw [hsame.amountIn]; exact had.amountIn_pos
  amountOutMin_pos := hpos
  timely := htimely
  nonempty := by rw [← hsame.path.length_eq]; exact had.nonempty
  bounded := by rw [← hsame.path.length_eq]; exact had.bounded
  chained := by
    rw [hsame.tokenIn, hsame.tokenOut]
    exact had.chained.withMins hsame.path hmin
  registered := by
    intro step' hmem
    obtain ⟨step, hstep, hprotocol⟩ := hsame.path.exists_mem hmem
    rw [← hprotocol]
    exact had.registered step hstep
  isToken := by rw [hsame.tokenIn]; exact had.isToken
  funded := by rw [hsame.amountIn, hsame.tokenIn, hsame.trader]; exact had.funded

/-! ## 2. Settled routes under other minimums -/

@[simp] theorem AdapterCall.delivered_withMin (m : Int) (x : AdapterCall) :
    (x.withMin m).delivered = x.delivered := rfl

theorem callAdapter_withMin {x : AdapterCall} (hblind : MinBlind h x.adapter) (m : Int)
    (w : World σ) :
    callAdapter h c x.adapter (x.withMin m).args w = callAdapter h c x.adapter x.args w := by
  unfold callAdapter
  rw [AdapterCall.withMin, hblind]

/-- **A settled hop settles under every minimum that its delivery meets.** -/
theorem HopSettles.withMin {recipient : Address} {step : SwapStep} {w w' : World σ} {a m : Int}
    {x : AdapterCall} (hhop : HopSettles h c reg recipient step w a x w')
    (hblind : MinBlind h x.adapter) (hm : m ≤ x.delivered) :
    HopSettles h c reg recipient (Router.withMin m step) w a (x.withMin m) w' := by
  obtain ⟨w₁, r, hpay, hbefore, htok, hcall, hreport, hr, hrd⟩ := hhop.called
  exact {
    registered := hhop.registered
    args := by rw [AdapterCall.withMin, hhop.args]; rfl
    called := ⟨w₁, r, hpay, hbefore, htok, (callAdapter_withMin hblind m w₁).trans hcall, hreport,
      hr, hrd⟩
    after := hhop.after
    isToken := hhop.isToken
    fits := hhop.fits
    min_le := hm }

/-- The calls, with the minimums of other steps. -/
def withMins (steps : List SwapStep) (xs : List AdapterCall) : List AdapterCall :=
  List.zipWith (fun step x => x.withMin step.amountOutMin) steps xs

/-- **A settled route settles under all minimums that its deliveries meet.** -/
theorem Settles.withMins {steps : List SwapStep} {w w' : World σ} {a v : Int}
    {xs : List AdapterCall} (hs : Settles h c reg dest steps w a xs w' v) :
    ∀ {steps' : List SwapStep}, SameSteps steps steps' →
      (∀ x ∈ xs, MinBlind h x.adapter) →
      (∀ step d, (step, d) ∈ steps'.zip (xs.map AdapterCall.delivered) → step.amountOutMin ≤ d) →
      Settles h c reg dest steps' w a (Router.withMins steps' xs) w' v := by
  induction hs with
  | nil =>
    rintro steps' ⟨⟩ - -
    exact .nil _ _
  | @cons step steps w w₁ w₂ a v x xs hhop _ ih =>
    rintro steps' (_ | @⟨_, step', _, steps', hstep, hsame⟩) hblind hmet
    obtain ⟨hx, hblind⟩ := List.forall_mem_cons.mp hblind
    have hm : step'.amountOutMin ≤ x.delivered := hmet _ _ (List.mem_cons_self ..)
    have hempty : (steps' = []) = (steps = []) := by
      rw [← List.length_eq_zero_iff, ← List.length_eq_zero_iff, hsame.length_eq]
    refine .cons ?_ (ih hsame hblind fun step d hmem => hmet step d (List.mem_cons_of_mem _ hmem))
    simp only [hempty]
    have hhop' := hhop.withMin hx hm
    rwa [← hstep] at hhop'

/-- Some hop falls short: the first one, or a later one. -/
theorem exists_short_cons {step₀ : SwapStep} {steps : List SwapStep} {d₀ : Int} {ds : List Int} :
    (∃ step d, (step, d) ∈ (step₀ :: steps).zip (d₀ :: ds) ∧ d < step.amountOutMin) ↔
      d₀ < step₀.amountOutMin ∨ ∃ step d, (step, d) ∈ steps.zip ds ∧ d < step.amountOutMin := by
  constructor
  · rintro ⟨step, d, hmem, hlt⟩
    rcases List.mem_cons.mp hmem with he | hmem
    · obtain ⟨rfl, rfl⟩ := Prod.mk.inj he
      exact .inl hlt
    · exact .inr ⟨step, d, hmem, hlt⟩
  · rintro (hlt | ⟨step, d, hmem, hlt⟩)
    · exact ⟨step₀, d₀, List.mem_cons_self .., hlt⟩
    · exact ⟨step, d, List.mem_cons_of_mem _ hmem, hlt⟩

/-- The deliveries of a settled route meet its minimums. -/
theorem Settles.meets {steps : List SwapStep} {w w' : World σ} {a v : Int}
    {xs : List AdapterCall} (hs : Settles h c reg dest steps w a xs w' v) {step : SwapStep}
    {d : Int} (hmem : (step, d) ∈ steps.zip (xs.map AdapterCall.delivered)) :
    step.amountOutMin ≤ d := by
  induction hs with
  | nil => cases hmem
  | cons hhop _ ih =>
    rcases List.mem_cons.mp hmem with he | hmem
    · obtain ⟨rfl, rfl⟩ := Prod.mk.inj he
      exact hhop.min_le
    · exact ih hmem

/-- Every call was made at the adapter of a step. -/
theorem Settles.registered {steps : List SwapStep} {w w' : World σ} {a v : Int}
    {xs : List AdapterCall} (hs : Settles h c reg dest steps w a xs w' v) {x : AdapterCall}
    (hx : x ∈ xs) : ∃ step ∈ steps, reg step.protocol = some x.adapter := by
  induction hs with
  | nil => cases hx
  | cons hhop _ ih =>
    rcases List.mem_cons.mp hx with rfl | hx
    · exact ⟨_, List.mem_cons_self .., hhop.registered⟩
    · obtain ⟨step, hstep, hreg⟩ := ih hx
      exact ⟨step, List.mem_cons_of_mem _ hstep, hreg⟩

/-- Where the adapters on the route do not look at minimums, those that were called do not. -/
theorem Settles.minBlind {steps : List SwapStep} {w w' : World σ} {a v : Int}
    {xs : List AdapterCall} (hs : Settles h c reg dest steps w a xs w' v)
    (hblind : ∀ step ∈ steps, ∀ adapter, reg step.protocol = some adapter → MinBlind h adapter) :
    ∀ x ∈ xs, MinBlind h x.adapter := by
  intro x hx
  obtain ⟨step, hstep, hreg⟩ := hs.registered hx
  exact hblind step hstep x.adapter hreg

/-- The records do not tell about minimums. -/
theorem routeRecords_withMins {executionId : Nat} {trader : Address} {steps steps' : List SwapStep}
    (hsame : SameSteps steps steps') (xs : List AdapterCall) (i : Nat) :
    routeRecords executionId trader i steps' (withMins steps' xs) =
      routeRecords executionId trader i steps xs := by
  induction hsame generalizing xs i with
  | nil => rfl
  | cons hstep _ ih =>
    cases xs with
    | nil => rfl
    | cons x xs =>
      have hrest := ih xs (i + 1)
      simp only [withMins, List.zipWith_cons_cons, routeRecords] at hrest ⊢
      rw [hrest, hstep]
      rfl

/-! ## 3. The other run -/

section Runs

variable {p q : SwapParams} {s s' : State σ} {v : Int}

theorem deliveries_eq {executionId : Nat} {xs : List AdapterCall} {s' : State σ}
    (hlen : xs.length = p.path.length) (hlog : s'.log = s.log ++ swapOps c p executionId xs v) :
    deliveries s s' = xs.map AdapterCall.delivered := by
  rw [deliveries, Running.since_eq hlog, callsOf_swapOps hlen]

theorem SameRequest.swapRecord (hsame : SameRequest p q) (executionId : Nat) :
    swapRecord c q executionId v = swapRecord c p executionId v := by
  rw [Router.swapRecord, hsame.trader, hsame.tokenIn, hsame.tokenOut, hsame.amountIn,
    hsame.path.protocols]
  rfl

/-- **A request that succeeds succeeds under all bounds that it meets**, and with the same end. -/
theorem swap_withBounds (hok : swap h c p s = (.ok v, s')) (hsame : SameRequest p q)
    (hblind : ∀ step ∈ p.path, ∀ adapter,
      s.store.adapterOf step.protocol = some adapter → MinBlind h adapter)
    (hpos : 0 < q.amountOutMin) (htimely : c.timestamp ≤ q.deadline)
    (hnonneg : ∀ step ∈ q.path, 0 ≤ step.amountOutMin) (hmet : ¬ Short q (deliveries s s') v) :
    ∃ s'', swap h c q s = (.ok v, s'') ∧ SameEnd s' s'' := by
  obtain ⟨had, hn, w₁, xs, w', hpay, hset, -, rfl⟩ := swap_eq_ok_iff.mp hok
  have had' : Admitted h c q s := had.withBounds hsame hpos htimely hnonneg
  rw [deliveries_eq hset.length_eq rfl, Short, not_or, not_lt] at hmet
  obtain ⟨hhops, hmin⟩ := hmet
  have hset' : Settles h c s.store.adapterOf q.trader q.path w₁ q.amountIn
      (withMins q.path xs) w' v := by
    rw [hsame.trader, hsame.amountIn]
    exact hset.withMins hsame.path (hset.minBlind hblind) fun step d hmem =>
      not_lt.mp fun hlt => hhops ⟨step, d, hmem, hlt⟩
  have hpay' : s.world.pay h.toTokens q.tokenIn q.trader c.self q.amountIn = some w₁ := by
    rw [hsame.tokenIn, hsame.trader, hsame.amountIn]
    exact hpay
  refine ⟨_, swap_eq_ok_iff.mpr ⟨had', hn, w₁, _, w', hpay', hset', hmin, rfl⟩, rfl, rfl, ?_⟩
  simp only [eventsOf_append, eventsOf_swapOps, routeRecords_withMins hsame.path,
    hsame.trader, hsame.swapRecord]

/-- **A hop that falls short** gives up at its check, if under another minimum it settles. -/
theorem hop_short {trader : Address} {last executionId i : Nat} {step : SwapStep}
    {progress : Progress} {x : AdapterCall} {w' : World σ} {m : Int}
    (hhop : HopSettles h c s.store.adapterOf (if i = last then trader else c.self)
      (withMin m step) s.world progress.hopAmountIn x w')
    (hblind : MinBlind h x.adapter) (hshort : x.delivered < step.amountOutMin) :
    ∃ s', hop h c trader last executionId i (some step) progress s =
      (.err .insufficientOutput, s') := by
  obtain ⟨w₁, r, hpay, hbefore, htok, hcall, -, hr, hrd⟩ := hhop.called
  have hargs : (x.withMin step.amountOutMin).args =
      ⟨step.pool, step.tokenIn, step.tokenOut, progress.hopAmountIn, step.amountOutMin,
        if i = last then trader else c.self⟩ := by
    rw [AdapterCall.withMin, hhop.args]
    rfl
  have hcall' := (callAdapter_withMin hblind step.amountOutMin w₁).trans hcall
  rw [hargs] at hcall'
  have hdelivered := hhop.delivered_eq hbefore
  have hfits : checkedI128 (w'.bal step.tokenOut (if i = last then trader else c.self) -
      w₁.bal step.tokenOut (if i = last then trader else c.self)) = some x.delivered := by
    refine checkedI128_eq_some.mpr ⟨⟨?_, ?_⟩, hdelivered.symm⟩
    · exact le_trans (by decide) (le_of_lt (hdelivered ▸ hhop.delivered_pos))
    · exact hdelivered ▸ hhop.fits
  apply Exists.intro
  refine (Exec.bind_of_ok (Exec.okOr_eq_ok.mpr ⟨rfl, rfl⟩)).trans ?_
  refine (Exec.bind_of_ok (Exec.gets_eq_ok.mpr ⟨rfl, rfl⟩)).trans ?_
  refine (Exec.bind_of_ok (Exec.okOr_eq_ok.mpr ⟨hhop.registered, rfl⟩)).trans ?_
  refine (Exec.bind_of_ok (a := ()) (transfer_eq_ok.mpr ⟨.inl rfl, w₁, hpay, rfl⟩)).trans ?_
  refine (Exec.bind_of_ok (balance_eq_ok.mpr ⟨htok, rfl, rfl⟩)).trans ?_
  refine (Exec.bind_of_ok (trySwap_eq_ok.mpr ⟨w', hcall', rfl⟩)).trans ?_
  refine (Exec.bind_of_ok (Exec.failIf_of_not (not_le.mpr hr) _ _)).trans ?_
  refine (Exec.bind_of_ok (balance_eq_ok.mpr ⟨hhop.isToken, rfl, rfl⟩)).trans ?_
  refine (Exec.bind_of_ok (Exec.okOr_eq_ok.mpr ⟨hfits, rfl⟩)).trans ?_
  refine (Exec.bind_of_ok (Exec.failIf_of_not (not_lt.mpr hrd) _ _)).trans ?_
  exact Exec.bind_of_err (Exec.failIf_of hshort _ _)

/-- **A route on which a hop falls short** gives up there: the hops before it settle. -/
theorem forList_hop_short {trader : Address} {last executionId : Nat} {w w' : World σ} {a : Int}
    {steps' : List SwapStep} {xs : List AdapterCall}
    (hs : Settles h c reg trader steps' w a xs w' v) :
    ∀ {steps : List SwapStep} {i : Nat} {progress : Progress} {s : State σ},
      SameSteps steps steps' → (∀ x ∈ xs, MinBlind h x.adapter) → i + steps.length = last + 1 →
      s.store.adapterOf = reg → s.world = w → progress.hopAmountIn = a →
      (∃ step d, (step, d) ∈ steps.zip (xs.map AdapterCall.delivered) ∧ d < step.amountOutMin) →
      ∃ s', forList (fun j step q => hop h c trader last executionId j (some step) q) i steps
        progress s = (.err .insufficientOutput, s') := by
  induction hs with
  | nil =>
    rintro steps i progress s - - - - - - ⟨step, d, hmem, -⟩
    simp at hmem
  | @cons step' steps' w w₁ w₂ a v x xs hhop _ ih =>
    rintro _ i progress s (_ | @⟨step, _, steps, _, hstep, hsame⟩) hblind hi rfl rfl rfl hshort
    obtain ⟨hx, hblind⟩ := List.forall_mem_cons.mp hblind
    rw [List.length_cons] at hi
    have hempty : (steps' = []) = (i = last) := by
      rw [← List.length_eq_zero_iff, ← hsame.length_eq]
      exact propext ⟨fun _ => by omega, fun _ => by omega⟩
    simp only [hempty] at hhop
    by_cases hlt : x.delivered < step.amountOutMin
    · rw [hstep] at hhop
      obtain ⟨s', hfail⟩ : ∃ s', hop h c trader last executionId i (some step) progress s =
        (.err .insufficientOutput, s') := hop_short hhop hx hlt
      exact ⟨s', Exec.bind_of_err hfail⟩
    · -- this hop settles, so it is a later one that falls short
      have hhop' := hhop.withMin hx (not_lt.mp hlt)
      have hback : withMin step.amountOutMin step' = step := by
        rw [hstep]
        rfl
      rw [hback] at hhop'
      have hlater : ∃ step d, (step, d) ∈ steps.zip (xs.map AdapterCall.delivered) ∧
          d < step.amountOutMin := (exists_short_cons.mp hshort).resolve_left hlt
      let s₁ : State σ := { s with
        world := w₁
        log := s.log ++ hopOps c trader executionId i step (x.withMin step.amountOutMin) }
      have hok : hop h c trader last executionId i (some step) progress s =
          (.ok ⟨progress.protocols ++ [step.protocol], x.delivered⟩, s₁) :=
        hop_eq_ok.mpr ⟨_, w₁, hhop', rfl, rfl⟩
      obtain ⟨s', hfail⟩ := @ih steps (i + 1) ⟨progress.protocols ++ [step.protocol], x.delivered⟩
        s₁ hsame hblind (by omega) rfl rfl rfl hlater
      exact ⟨s', (Exec.bind_of_ok hok).trans hfail⟩

/-- `swap` from the hop loop on. -/
def settleHops (h : Host σ) (c : Ctx) (p : SwapParams) (executionId : Nat) : Call σ Int := do
  let done ← forList
    (fun i step q => hop h c p.trader (p.path.length - 1) executionId i (some step) q) 0 p.path
    { protocols := [], hopAmountIn := p.amountIn }
  conclude c p executionId done

/-- The state in which an admitted call enters the hop loop, having pulled the tokens. -/
def entered (p : SwapParams) (c : Ctx) (s : State σ) (w : World σ) : State σ :=
  { store := { s.store with nonce := some (s.store.nonce.getD 0 + 1) }
    world := w
    log := s.log ++ [.transfer p.tokenIn p.trader c.self p.amountIn] ++ [.write .nonce] }

/-- **An admitted call reaches the hop loop.** -/
theorem swap_eq_settleHops {w : World σ} (had : Admitted h c p s)
    (hn : s.store.nonce.getD 0 < U64_MAX)
    (hpay : s.world.pay h.toTokens p.tokenIn p.trader c.self p.amountIn = some w) :
    swap h c p s = settleHops h c p (s.store.nonce.getD 0 + 1) (entered p c s w) := by
  have hlast : checkedSub p.path.length 1 = some (p.path.length - 1) :=
    checkedSub_eq_some.mpr ⟨had.nonempty, rfl⟩
  have hnonce : nextNonce { s with
      world := w
      log := s.log ++ [.transfer p.tokenIn p.trader c.self p.amountIn] } =
        (.ok (s.store.nonce.getD 0 + 1), entered p c s w) :=
    nextNonce_eq_ok.mpr ⟨had.initialized, hn, rfl, rfl⟩
  refine (Exec.bind_of_ok (a := ()) (checkSwap_eq_ok.mpr ⟨had, rfl⟩)).trans ?_
  refine (Exec.bind_of_ok (a := ())
    (transfer_eq_ok.mpr ⟨.inr had.authorized, w, hpay, rfl⟩)).trans ?_
  refine (Exec.bind_of_ok (Exec.okOr_eq_ok.mpr ⟨hlast, rfl⟩)).trans ?_
  refine (Exec.bind_of_ok hnonce).trans ?_
  rw [hop_loop]
  rfl

/-- **A request that falls short** of what it would need fails with `InsufficientOutput`. -/
theorem swap_short (hok : swap h c p s = (.ok v, s')) (hsame : SameRequest p q)
    (hblind : ∀ step ∈ p.path, ∀ adapter,
      s.store.adapterOf step.protocol = some adapter → MinBlind h adapter)
    (hpos : 0 < q.amountOutMin) (htimely : c.timestamp ≤ q.deadline)
    (hnonneg : ∀ step ∈ q.path, 0 ≤ step.amountOutMin) (hshort : Short q (deliveries s s') v) :
    ∃ s'', swap h c q s = (.err .insufficientOutput, s'') := by
  obtain ⟨had, hn, w₁, xs, w', hpay, hset, -, rfl⟩ := swap_eq_ok_iff.mp hok
  have had' : Admitted h c q s := had.withBounds hsame hpos htimely hnonneg
  have hlen : 0 + q.path.length = q.path.length - 1 + 1 := by
    have := had'.nonempty
    omega
  have hx : ∀ x ∈ xs, MinBlind h x.adapter := hset.minBlind hblind
  rw [deliveries_eq hset.length_eq rfl] at hshort
  rw [← hsame.tokenIn, ← hsame.trader, ← hsame.amountIn] at hpay
  rw [← hsame.trader, ← hsame.amountIn] at hset
  rw [swap_eq_settleHops had' hn hpay]
  by_cases hhops : ∃ step d, (step, d) ∈ q.path.zip (xs.map AdapterCall.delivered) ∧
      d < step.amountOutMin
  · obtain ⟨s'', hfail⟩ : ∃ s'', forList (fun i step progress =>
        hop h c q.trader (q.path.length - 1) (s.store.nonce.getD 0 + 1) i (some step) progress) 0
          q.path ⟨[], q.amountIn⟩ (entered q c s w₁) = (.err .insufficientOutput, s'') :=
      forList_hop_short hset hsame.path.symm hx hlen rfl rfl rfl hhops
    exact ⟨s'', Exec.bind_of_err hfail⟩
  · -- every hop settles, and the result is too small
    have hset' : Settles h c s.store.adapterOf q.trader q.path w₁ q.amountIn
        (withMins q.path xs) w' v :=
      hset.withMins hsame.path hx fun step d hmem =>
        not_lt.mp fun hlt => hhops ⟨step, d, hmem, hlt⟩
    have hlt : v < q.amountOutMin := hshort.resolve_left hhops
    exact ⟨_, (Exec.bind_of_ok ((forList_hop q.path 0 _ _ _ _ hlen).mpr
      ⟨_, w', v, hset', rfl, rfl⟩)).trans (Exec.bind_of_err (Exec.failIf_of hlt _ _))⟩

/-- A delivery that is below a looser minimum is below the minimum. -/
theorem LooserSteps.short {steps steps' : List SwapStep} (hloose : LooserSteps steps steps')
    {ds : List Int} (hshort : ∃ step d, (step, d) ∈ steps'.zip ds ∧ d < step.amountOutMin) :
    ∃ step d, (step, d) ∈ steps.zip ds ∧ d < step.amountOutMin := by
  induction hloose generalizing ds with
  | nil => exact hshort
  | cons hmin _ ih =>
    cases ds with
    | nil =>
      obtain ⟨_, _, hmem, -⟩ := hshort
      cases hmem
    | cons d ds =>
      rw [exists_short_cons] at hshort ⊢
      rcases hshort with hlt | hlater
      · exact .inl (lt_of_lt_of_le hlt hmin.2)
      · exact .inr (ih hlater)

theorem LooserSteps.nonneg {steps steps' : List SwapStep} (hloose : LooserSteps steps steps') :
    (∀ step ∈ steps, 0 ≤ step.amountOutMin) ∧ ∀ step ∈ steps', 0 ≤ step.amountOutMin := by
  induction hloose with
  | nil => simp
  | cons hmin _ ih =>
    rw [List.forall_mem_cons, List.forall_mem_cons]
    exact ⟨⟨le_trans hmin.1 hmin.2, ih.1⟩, hmin.1, ih.2⟩

theorem Loosens.short (hloose : Loosens p q) {ds : List Int} (hshort : Short q ds v) :
    Short p ds v := by
  rcases hshort with hhops | hlt
  · exact .inl (hloose.minimums.short hhops)
  · exact .inr (lt_of_lt_of_le hlt hloose.amountOutMin_le)

/-- A swap that succeeded met its own minimums. -/
theorem not_short_of_ok (hok : swap h c p s = (.ok v, s')) : ¬ Short p (deliveries s s') v := by
  obtain ⟨-, hmin, -, w₁, -, hset⟩ := swap_settles hok
  rintro (⟨step, d, hmem, hlt⟩ | hlt)
  · exact not_le.mpr hlt (hset.meets hmem)
  · exact not_le.mpr hlt hmin

end Runs

/-! ## 4. The two requests -/

/-- **Minimums and the deadline are pure filters.**  Where the adapters on the route do not look at
the minimum they are given, a request with looser bounds ends where the request does, if that
succeeds.  Where the looser one succeeds, and its deadline has not passed, the request ends in the
same place or fails with `InsufficientOutput`, and fails so exactly when a delivery or the result
falls short. -/
theorem minimums_filter {p q : SwapParams} {s : State σ} (hloose : Loosens p q)
    (hblind : ∀ step ∈ p.path, ∀ adapter,
      s.store.adapterOf step.protocol = some adapter → MinBlind h adapter) :
    (∀ v s₁, swap h c p s = (.ok v, s₁) →
      ∃ s₂, swap h c q s = (.ok v, s₂) ∧ SameEnd s₁ s₂) ∧
    ∀ v s₂, swap h c q s = (.ok v, s₂) → c.timestamp ≤ p.deadline →
      ((∃ s₁, swap h c p s = (.ok v, s₁) ∧ SameEnd s₁ s₂) ∨
        (swap h c p s).1 = .err .insufficientOutput) ∧
      ((swap h c p s).1 = .err .insufficientOutput ↔ Short p (deliveries s s₂) v) := by
  have hsame := hloose.toSameRequest
  have hblind' : ∀ step ∈ q.path, ∀ adapter,
      s.store.adapterOf step.protocol = some adapter → MinBlind h adapter := by
    intro step' hmem adapter hreg
    obtain ⟨step, hstep, hprotocol⟩ := hsame.path.exists_mem hmem
    rw [← hprotocol] at hreg
    exact hblind step hstep adapter hreg
  obtain ⟨hnonneg, hnonneg'⟩ := hloose.minimums.nonneg
  refine ⟨fun v s₁ hok => ?_, fun v s₂ hok htimely => ?_⟩
  · have htimely : c.timestamp ≤ q.deadline :=
      le_trans (swap_settles hok).1.timely hloose.deadline_le
    exact swap_withBounds hok hsame hblind hloose.amountOutMin_pos htimely hnonneg'
      fun hshort => not_short_of_ok hok (hloose.short hshort)
  · have hpos : 0 < p.amountOutMin :=
      lt_of_lt_of_le hloose.amountOutMin_pos hloose.amountOutMin_le
    by_cases hshort : Short p (deliveries s s₂) v
    · obtain ⟨s₁, hfail⟩ := swap_short hok hsame.symm hblind' hpos htimely hnonneg hshort
      have herr : (swap h c p s).1 = .err .insufficientOutput := by rw [hfail]
      exact ⟨.inr herr, fun _ => hshort, fun _ => herr⟩
    · obtain ⟨s₁, hok₁, hend⟩ :=
        swap_withBounds hok hsame.symm hblind' hpos htimely hnonneg hshort
      refine ⟨.inl ⟨s₁, hok₁, hend.symm⟩, fun herr => ?_, fun h => absurd h hshort⟩
      rw [hok₁] at herr
      cases herr

/-- Test adapters leave the minimum to the router. -/
theorem testAdapter_minBlind (T : Tokens TestAdapter.Deployments) (c₀ : Ctx) (adapter : Address) :
    MinBlind (TestAdapter.host T c₀) adapter :=
  fun _ _ _ => rfl

section Witness

open TestAdapter.Fixture

/-- The two-hop swap without hop minimums, and with a little less for the result. -/
def lenient : SwapParams :=
  { twoHops with
    amountOutMin := 1
    path := [stepOnPool pool tokenA tokenB 0, stepOnPool pool2 tokenB tokenC 0] }

/-- The two-hop swap for one unit more than it gives. -/
def greedy : SwapParams := { twoHops with amountOutMin := 1501 }

theorem twoHops_loosens : Loosens twoHops lenient where
  trader := rfl
  tokenIn := rfl
  tokenOut := rfl
  amountIn := rfl
  path := .cons rfl (.cons rfl .nil)
  amountOutMin_pos := by decide
  amountOutMin_le := by decide
  deadline_le := le_refl _
  minimums := .cons (by decide) (.cons (by decide) .nil)

theorem greedy_loosens : Loosens greedy twoHops where
  trader := rfl
  tokenIn := rfl
  tokenOut := rfl
  amountIn := rfl
  path := .cons rfl (.cons rfl .nil)
  amountOutMin_pos := by decide
  amountOutMin_le := by decide
  deadline_le := le_refl _
  minimums := .cons (by decide) (.cons (by decide) .nil)

theorem minimums_filter_twoHops :
    (∃ s₂, swap chain ctx lenient funded = (.ok 1500, s₂) ∧ SameEnd swapped s₂) ∧
      (swap chain ctx greedy funded).1 = .err .insufficientOutput := by
  constructor
  · exact (minimums_filter twoHops_loosens fun _ _ adapter _ =>
      testAdapter_minBlind Tokens.standard ctx adapter).1 1500 swapped swap_twoHops
  · obtain ⟨-, hfails⟩ := (minimums_filter greedy_loosens fun _ _ adapter _ =>
      testAdapter_minBlind Tokens.standard ctx adapter).2 1500 swapped swap_twoHops (by decide)
    exact hfails.mpr (.inr (by decide))

end Witness

end Stellariq.Router
