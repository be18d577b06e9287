/-
# What a successful swap did

`swap_eq_ok_iff` reads a successful `swap` off as a conjunction: the guards (`Admitted`), the
pull of the trader's tokens, a fresh execution id, and a settled route (`Settles`), which is
the hop loop with everything operational taken out of it.  A hop settles (`HopSettles`) when
its input could be forwarded, the adapter call succeeded, and the recipient's balance rose by
at least what was reported and at least the step's minimum.

Every later module works from `swap_eq_ok_iff` and from the two constructors of `Settles`; none
unfolds the contract again.
-/
import Stellariq.Router.Contract

namespace Stellariq.Router

open Kit

variable {σ : Type}

/-! ## 1. The shape of a route -/

/-- The route leads from token `a` to token `b`, each step starting where the one before it
ended, with no negative hop minimum. -/
def Chained : Address → List SwapStep → Address → Prop
  | a, [], b => a = b
  | a, step :: steps, b =>
    step.tokenIn = a ∧ 0 ≤ step.amountOutMin ∧ Chained step.tokenOut steps b

/-- The tokens a call moves. -/
def routeTokens (p : SwapParams) : List Address := p.tokenIn :: p.path.map SwapStep.tokenOut

theorem validateStep_eq_ok {step : SwapStep} {cursor cursor' : Address} :
    validateStep (some step) cursor = .ok cursor' ↔
      step.tokenIn = cursor ∧ 0 ≤ step.amountOutMin ∧ step.tokenOut = cursor' := by
  unfold validateStep
  by_cases h1 : step.tokenIn = cursor
  · by_cases h2 : step.amountOutMin < 0
    · simp [h1, h2]
    · simp [h1, h2, not_lt.mp h2]
  · simp [h1]

theorem validate_loop (path : List SwapStep) (a : Address) :
    forRange (fun i cursor => validateStep path[i]? cursor) 0 path.length a =
      forList (fun _ step cursor => validateStep (some step) cursor) 0 path a :=
  forRange_length path (fun _ step cursor => validateStep step cursor) a

/-- The validation loop, along the list: it ends at the token the route ends at. -/
theorem forList_validateStep {b : Address} : ∀ (steps : List SwapStep) (i : Nat) (a : Address),
    forList (fun _ step cursor => validateStep (some step) cursor) i steps a = .ok b ↔
      Chained a steps b
  | [], _, a => by simp [forList, Chained, pure, Except.pure]
  | step :: steps, i, a => by
    simp only [forList, Chained]
    cases hv : validateStep (some step) a with
    | error e =>
      simp only [bind, Except.bind, reduceCtorEq, false_iff]
      rintro ⟨h1, h2, -⟩
      rw [validateStep_eq_ok.mpr ⟨h1, h2, rfl⟩] at hv
      cases hv
    | ok cursor =>
      obtain ⟨h1, h2, rfl⟩ := validateStep_eq_ok.mp hv
      simp only [bind, Except.bind, forList_validateStep steps (i + 1), h1, h2, true_and]

/-- **`validate_path` accepts exactly the chained routes.** -/
theorem validatePath_eq_ok {a b : Address} {path : List SwapStep} :
    validatePath a b path = .ok () ↔ Chained a path b := by
  unfold validatePath
  rw [validate_loop]
  cases hv : forList (fun _ step cursor => validateStep (some step) cursor) 0 path a with
  | error e =>
    simp only [bind, Except.bind, reduceCtorEq, false_iff]
    intro hc
    rw [(forList_validateStep path 0 a).mpr hc] at hv
    cases hv
  | ok cursor =>
    have hc := (forList_validateStep path 0 a).mp hv
    simp only [bind, Except.bind]
    by_cases hb : cursor = b
    · subst hb
      simpa using hc
    · simp only [ne_eq, hb, not_false_eq_true, if_true, reduceCtorEq, false_iff]
      intro hc'
      rw [(forList_validateStep path 0 a).mpr hc'] at hv
      exact hb (by cases hv; rfl)

/-! ## 2. The guards -/

theorem readAdmin_eq_ok {s s' : State σ} {a : Address} :
    readAdmin s = (.ok a, s') ↔ s.store.admin = some a ∧ s' = s :=
  Exec.gets_okOr_eq_ok

theorem checkRegistered_eq_ok {s s' : State σ} {step : SwapStep} {u : Unit} :
    checkRegistered (some step) s = (.ok u, s') ↔
      (s.store.adapterOf step.protocol).isSome = true ∧ s' = s := by
  simp only [checkRegistered, Exec.bind_eq_ok, Exec.gets_eq_ok, Exec.okOr_eq_ok,
    Exec.failIf_eq_ok, Option.some.injEq]
  constructor
  · rintro ⟨_, _, ⟨rfl, rfl⟩, _, _, ⟨rfl, rfl⟩, h, rfl⟩
    exact ⟨by rwa [Bool.not_eq_false] at h, rfl⟩
  · rintro ⟨h, rfl⟩
    exact ⟨_, _, ⟨rfl, rfl⟩, _, _, ⟨rfl, rfl⟩, by rwa [Bool.not_eq_false], rfl⟩

theorem registry_loop (path : List SwapStep) :
    forRange (fun i (_ : Unit) => checkRegistered (σ := σ) path[i]?) 0 path.length () =
      forList (fun _ step (_ : Unit) => checkRegistered (some step)) 0 path () :=
  forRange_length path (fun _ step _ => checkRegistered step) ()

/-- The registry pre-check, along the list. -/
theorem forList_checkRegistered {s s' : State σ} {u : Unit} :
    ∀ (steps : List SwapStep) (i : Nat),
      forList (fun _ step (_ : Unit) => checkRegistered (some step)) i steps () s = (.ok u, s') ↔
        (∀ step ∈ steps, (s.store.adapterOf step.protocol).isSome = true) ∧ s' = s
  | [], _ => by simp [forList]
  | step :: steps, i => by
    simp only [forList, Exec.bind_eq_ok, checkRegistered_eq_ok, List.forall_mem_cons]
    constructor
    · rintro ⟨_, _, ⟨h1, rfl⟩, h2⟩
      obtain ⟨h3, h4⟩ := (forList_checkRegistered steps (i + 1)).mp h2
      exact ⟨⟨h1, h3⟩, h4⟩
    · rintro ⟨⟨h1, h3⟩, h4⟩
      exact ⟨(), s, ⟨h1, rfl⟩, (forList_checkRegistered steps (i + 1)).mpr ⟨h3, h4⟩⟩

/-- The call passes every check that `swap` makes before funds move. -/
structure Admitted (h : Host σ) (c : Ctx) (p : SwapParams) (s : State σ) : Prop where
  initialized : s.store.admin.isSome = true
  unpaused : s.store.paused.getD false = false
  authorized : c.Authorizes p.trader
  amountIn_pos : 0 < p.amountIn
  amountOutMin_pos : 0 < p.amountOutMin
  timely : c.timestamp ≤ p.deadline
  nonempty : 1 ≤ p.path.length
  bounded : p.path.length ≤ MAX_HOPS
  chained : Chained p.tokenIn p.path p.tokenOut
  registered : ∀ step ∈ p.path, (s.store.adapterOf step.protocol).isSome = true
  isToken : h.isToken s.world p.tokenIn = true
  funded : p.amountIn ≤ s.world.bal p.tokenIn p.trader

/-- **The guards, exactly.**  They pass on the admitted calls and leave no trace. -/
theorem checkSwap_eq_ok {h : Host σ} {c : Ctx} {p : SwapParams} {s s' : State σ} {u : Unit} :
    checkSwap h c p s = (.ok u, s') ↔ Admitted h c p s ∧ s' = s := by
  simp only [checkSwap, Exec.bind_eq_ok, readAdmin_eq_ok, Exec.gets_eq_ok, Exec.failIf_eq_ok,
    requireAuth_eq_ok, Exec.ofExcept_eq_ok, balance_eq_ok, registry_loop, forList_checkRegistered,
    exists_const, and_assoc, exists_and_left, exists_eq_left, exists_eq_left']
  constructor
  · rintro ⟨a, ha, hp, hauth, hin, hmin, hdl, hne, hhops, _, hpath, hreg, htok, hbal, rfl⟩
    exact ⟨{
      initialized := by rw [ha]; rfl
      unpaused := by rwa [Bool.not_eq_true] at hp
      authorized := hauth
      amountIn_pos := not_le.mp hin
      amountOutMin_pos := not_le.mp hmin
      timely := not_lt.mp hdl
      nonempty := Nat.one_le_iff_ne_zero.mpr hne
      bounded := not_lt.mp hhops
      chained := validatePath_eq_ok.mp hpath
      registered := hreg
      isToken := htok
      funded := not_lt.mp hbal }, rfl⟩
  · rintro ⟨had, rfl⟩
    obtain ⟨a, ha⟩ := Option.isSome_iff_exists.mp had.initialized
    exact ⟨a, ha, by rw [Bool.not_eq_true]; exact had.unpaused, had.authorized,
      not_le.mpr had.amountIn_pos, not_le.mpr had.amountOutMin_pos, not_lt.mpr had.timely,
      Nat.one_le_iff_ne_zero.mp had.nonempty, not_lt.mpr had.bounded, (),
      validatePath_eq_ok.mpr had.chained, had.registered, had.isToken,
      not_lt.mpr had.funded, rfl⟩

/-! ## 3. Settled hops -/

/-- The record of one hop in the event log. -/
def hopRecord (executionId : Nat) (trader : Address) (i : Nat) (step : SwapStep)
    (x : AdapterCall) : HopExecuted :=
  { executionId, trader, hopIndex := i, protocol := step.protocol, pool := step.pool,
    tokenIn := step.tokenIn, tokenOut := step.tokenOut, amountIn := x.args.amountIn,
    amountOut := x.delivered, version := EVENT_SCHEMA_VERSION }

/-- What one hop does to the log: forward the input, call the adapter, record the hop. -/
def hopOps (c : Ctx) (trader : Address) (executionId i : Nat) (step : SwapStep)
    (x : AdapterCall) : List Op :=
  [.transfer step.tokenIn c.self x.adapter x.args.amountIn, .call x,
    .event (.hopExecuted (hopRecord executionId trader i step x))]

/-- From `w`, the hop `step` with input `a` settles through the adapter call `x` and leaves
the world `w'`. -/
structure HopSettles (h : Host σ) (c : Ctx) (reg : Symbol → Option Address)
    (recipient : Address) (step : SwapStep) (w : World σ) (a : Int) (x : AdapterCall)
    (w' : World σ) : Prop where
  registered : reg step.protocol = some x.adapter
  args : x.args = ⟨step.pool, step.tokenIn, step.tokenOut, a, step.amountOutMin, recipient⟩
  called : ∃ w₁ r, w.pay h.toTokens step.tokenIn c.self x.adapter a = some w₁ ∧
    x.before = w₁.ledger ∧ h.isToken w₁ step.tokenOut = true ∧
    callAdapter h c x.adapter x.args w₁ = .ok (r, w') ∧ x.report = .ok r ∧
    0 < r ∧ r ≤ x.delivered
  after : x.after = w'.ledger
  isToken : h.isToken w' step.tokenOut = true
  fits : x.delivered ≤ I128_MAX
  min_le : step.amountOutMin ≤ x.delivered

theorem trySwap_eq_ok {h : Host σ} {c : Ctx} {adapter : Address} {args : AdapterArgs}
    {s s' : State σ} {r : Int} :
    trySwap h c adapter args s = (.ok r, s') ↔
      ∃ w, callAdapter h c adapter args s.world = .ok (r, w) ∧
        s' = { s with
          world := w
          log := s.log ++ [.call ⟨adapter, args, s.world.ledger, .ok r, w.ledger⟩] } := by
  unfold trySwap
  cases hc : callAdapter h c adapter args s.world with
  | error f => simp
  | ok rw =>
    obtain ⟨r', w⟩ := rw
    simp only [Prod.mk.injEq, Outcome.ok.injEq, Except.ok.injEq]
    constructor
    · rintro ⟨rfl, rfl⟩
      exact ⟨w, ⟨rfl, rfl⟩, rfl⟩
    · rintro ⟨w', ⟨rfl, rfl⟩, rfl⟩
      exact ⟨rfl, rfl⟩

/-- **One round of the hop loop, exactly.** -/
theorem hop_eq_ok {h : Host σ} {c : Ctx} {trader : Address} {last executionId i : Nat}
    {step : SwapStep} {p q : Progress} {s s' : State σ} :
    hop h c trader last executionId i (some step) p s = (.ok q, s') ↔
      ∃ x w', HopSettles h c s.store.adapterOf (if i = last then trader else c.self) step
          s.world p.hopAmountIn x w' ∧
        q = ⟨p.protocols ++ [step.protocol], x.delivered⟩ ∧
        s' = { s with world := w', log := s.log ++ hopOps c trader executionId i step x } := by
  simp only [hop, Exec.bind_eq_ok, Exec.gets_eq_ok, Exec.failIf_eq_ok, Exec.okOr_eq_ok,
    Option.some.injEq, transfer_eq_ok, balance_eq_ok, trySwap_eq_ok, publish_eq_ok,
    Exec.pure_eq_ok, checkedI128_eq_some,
    exists_const, and_assoc, exists_and_left, exists_eq_left, exists_eq_left', true_or,
    true_and]
  constructor
  · rintro ⟨adapter, hreg, _, ⟨w₁, hpay, rfl⟩, htok, r, _, ⟨w', hcall, rfl⟩, hr, htok', hlo, hhi,
      hrd, hmin, rfl, rfl⟩
    refine ⟨⟨adapter, _, w₁.ledger, .ok r, w'.ledger⟩, w',
      ⟨hreg, rfl, ⟨w₁, r, hpay, rfl, htok, hcall, rfl, not_le.mp hr, not_lt.mp hrd⟩, rfl, htok',
        hhi, not_lt.mp hmin⟩, rfl, ?_⟩
    simp only [hopOps, hopRecord, List.append_assoc, List.cons_append, List.nil_append]
    rfl
  · rintro ⟨⟨adapter, args, before, report, after⟩, w', hs, rfl, rfl⟩
    obtain ⟨w₁, r, hpay, rfl, htok, hcall, rfl, hr, hrd⟩ := hs.called
    obtain rfl := hs.args
    obtain rfl := hs.after
    have hlo : I128_MIN ≤ w'.bal step.tokenOut (if i = last then trader else c.self)
        - w₁.bal step.tokenOut (if i = last then trader else c.self) :=
      le_trans (by decide) (le_of_lt (lt_of_lt_of_le hr hrd))
    refine ⟨adapter, hs.registered, _, ⟨w₁, hpay, rfl⟩, htok, r, _, ⟨w', hcall, rfl⟩,
      not_le.mpr hr, hs.isToken, hlo, hs.fits, not_lt.mpr hrd, not_lt.mpr hs.min_le, rfl, ?_⟩
    simp only [hopOps, hopRecord, List.append_assoc, List.cons_append, List.nil_append]
    rfl

/-! ## 4. Settled routes -/

/-- **The hop loop, without its operations.**  From the world `w` and the amount `a`, the
steps settle one after the other through the adapter calls `xs`, each fed what the one before
it delivered; the last one delivers to `dest`, the others to the router. -/
inductive Settles (h : Host σ) (c : Ctx) (reg : Symbol → Option Address) (dest : Address) :
    List SwapStep → World σ → Int → List AdapterCall → World σ → Int → Prop
  | nil (w : World σ) (a : Int) : Settles h c reg dest [] w a [] w a
  | cons {step : SwapStep} {steps : List SwapStep} {w w' w'' : World σ} {a v : Int}
      {x : AdapterCall} {xs : List AdapterCall} :
      HopSettles h c reg (if steps = [] then dest else c.self) step w a x w' →
      Settles h c reg dest steps w' x.delivered xs w'' v →
      Settles h c reg dest (step :: steps) w a (x :: xs) w'' v

/-- What the hop loop does to the log, from hop index `i` on. -/
def routeOps (c : Ctx) (trader : Address) (executionId : Nat) :
    Nat → List SwapStep → List AdapterCall → List Op
  | i, step :: steps, x :: xs =>
    hopOps c trader executionId i step x ++ routeOps c trader executionId (i + 1) steps xs
  | _, _, _ => []

/-- The end of `swap`, after the hop loop. -/
def conclude (c : Ctx) (p : SwapParams) (executionId : Nat) (done : Progress) : Call σ Int := do
  Exec.failIf (done.hopAmountIn < p.amountOutMin) .insufficientOutput
  publish (.swapExecuted
    { trader := p.trader, tokenIn := p.tokenIn, tokenOut := p.tokenOut,
      amountIn := p.amountIn, amountOut := done.hopAmountIn, protocols := done.protocols,
      executionId, ledger := c.sequence, version := EVENT_SCHEMA_VERSION })
  extendInstance c
  pure done.hopAmountIn

theorem hop_loop (h : Host σ) (c : Ctx) (trader : Address) (last executionId : Nat)
    (path : List SwapStep) (q : Progress) :
    forRange (fun i q => hop h c trader last executionId i path[i]? q) 0 path.length q =
      forList (fun i step q => hop h c trader last executionId i (some step) q) 0 path q :=
  forRange_length path (fun i step q => hop h c trader last executionId i step q) q

/-- **The hop loop, exactly**, along the remaining steps. -/
theorem forList_hop {h : Host σ} {c : Ctx} {trader : Address} {last executionId : Nat} :
    ∀ (steps : List SwapStep) (i : Nat) (p q : Progress) (s s' : State σ),
      i + steps.length = last + 1 →
      (forList (fun j step p => hop h c trader last executionId j (some step) p) i steps p s
          = (.ok q, s') ↔
        ∃ xs w' v, Settles h c s.store.adapterOf trader steps s.world p.hopAmountIn xs w' v ∧
          q = ⟨p.protocols ++ steps.map SwapStep.protocol, v⟩ ∧
          s' = { s with
            world := w'
            log := s.log ++ routeOps c trader executionId i steps xs })
  | [], i, p, q, s, s', _ => by
    simp only [forList, Exec.pure_eq_ok]
    constructor
    · rintro ⟨rfl, rfl⟩
      exact ⟨[], s'.world, p.hopAmountIn, .nil _ _, by simp, by simp [routeOps]⟩
    · rintro ⟨xs, w', v, hset, rfl, rfl⟩
      cases hset
      simp [routeOps]
  | step :: steps, i, p, q, s, s', hi => by
    have hi' : i + 1 + steps.length = last + 1 := by
      rw [List.length_cons] at hi
      omega
    have hlast : (i = last) = (steps = []) := by
      rw [← List.length_eq_zero_iff]
      exact propext ⟨fun _ => by omega, fun _ => by omega⟩
    simp only [forList, Exec.bind_eq_ok, hop_eq_ok, hlast]
    constructor
    · rintro ⟨_, _, ⟨x, w₁, hx, rfl, rfl⟩, hrest⟩
      obtain ⟨xs, w', v, hset, rfl, rfl⟩ := (forList_hop steps (i + 1) _ q _ s' hi').mp hrest
      exact ⟨x :: xs, w', v, .cons hx hset, by simp, by simp [routeOps]⟩
    · rintro ⟨_, w', v, hset, rfl, rfl⟩
      cases hset with
      | @cons _ _ _ w₁ _ _ _ x xs hx hset =>
        refine ⟨_, _, ⟨x, w₁, hx, rfl, rfl⟩, ?_⟩
        exact (forList_hop steps (i + 1) _ _ _ _ hi').mpr
          ⟨xs, w', v, hset, by simp, by simp [routeOps]⟩

/-! ## 5. Successful swaps -/

/-- The summary record of a settled swap. -/
def swapRecord (c : Ctx) (p : SwapParams) (executionId : Nat) (v : Int) : SwapExecuted :=
  { trader := p.trader, tokenIn := p.tokenIn, tokenOut := p.tokenOut, amountIn := p.amountIn,
    amountOut := v, protocols := p.path.map SwapStep.protocol, executionId,
    ledger := c.sequence, version := EVENT_SCHEMA_VERSION }

/-- What a settled swap does to the log. -/
def swapOps (c : Ctx) (p : SwapParams) (executionId : Nat) (xs : List AdapterCall) (v : Int) :
    List Op :=
  .transfer p.tokenIn p.trader c.self p.amountIn :: .write .nonce ::
    (routeOps c p.trader executionId 0 p.path xs ++
      [.event (.swapExecuted (swapRecord c p executionId v))])

/-- The storage after a settled swap: a new nonce, and a renewed lifetime. -/
def Store.settled (st : Store) (c : Ctx) (executionId : Nat) : Store :=
  { st with
    nonce := some executionId
    instanceUntil := extendTtl c.sequence TTL_THRESHOLD TTL_EXTEND st.instanceUntil }

theorem nextNonce_eq_ok {s s' : State σ} {n : Nat} :
    nextNonce s = (.ok n, s') ↔
      s.store.admin.isSome = true ∧ s.store.nonce.getD 0 < U64_MAX ∧
        n = s.store.nonce.getD 0 + 1 ∧
        s' = { s with
          store := { s.store with nonce := some n }
          log := s.log ++ [.write .nonce] } := by
  simp only [nextNonce, peekNonce, Exec.bind_eq_ok, readAdmin_eq_ok, Exec.gets_eq_ok,
    Exec.okOr_eq_ok, checkedU64_eq_some, write_eq_ok, Exec.pure_eq_ok, Option.isSome_iff_exists,
    exists_const, and_assoc, exists_and_left, exists_eq_left, exists_eq_left', exists_and_right]
  constructor
  · rintro ⟨ha, hle, rfl, rfl⟩
    exact ⟨ha, hle, rfl, rfl⟩
  · rintro ⟨ha, hlt, rfl, rfl⟩
    exact ⟨ha, hlt, rfl, rfl⟩

theorem settle_eq_ok {h : Host σ} {c : Ctx} {p : SwapParams} {s s' : State σ} {v : Int}
    (hne : 1 ≤ p.path.length) :
    settle h c p s = (.ok v, s') ↔
      (p.trader = c.self ∨ c.Authorizes p.trader) ∧ s.store.admin.isSome = true ∧
        s.store.nonce.getD 0 < U64_MAX ∧
        ∃ w₁ xs w', s.world.pay h.toTokens p.tokenIn p.trader c.self p.amountIn = some w₁ ∧
          Settles h c s.store.adapterOf p.trader p.path w₁ p.amountIn xs w' v ∧
          p.amountOutMin ≤ v ∧
          s' = { store := s.store.settled c (s.store.nonce.getD 0 + 1), world := w',
                 log := s.log ++ swapOps c p (s.store.nonce.getD 0 + 1) xs v } := by
  have hlast : checkedSub p.path.length 1 = some (p.path.length - 1) :=
    checkedSub_eq_some.mpr ⟨hne, rfl⟩
  have hlen : 0 + p.path.length = p.path.length - 1 + 1 := by omega
  simp only [settle, Exec.bind_eq_ok, transfer_eq_ok, hlast, Exec.okOr_eq_ok, Option.some.injEq,
    nextNonce_eq_ok, hop_loop, Exec.failIf_eq_ok, publish_eq_ok, extendInstance, touch_eq_ok,
    Exec.pure_eq_ok]
  constructor
  · rintro ⟨_, _, ⟨hauth, w₁, hpay, rfl⟩, _, _, ⟨rfl, rfl⟩, _, _, ⟨hadm, hn, rfl, rfl⟩, _, _,
      hhops, _, _, ⟨hmin, rfl⟩, _, _, rfl, _, _, rfl, rfl, rfl⟩
    obtain ⟨xs, w', v', hset, rfl, rfl⟩ := (forList_hop p.path 0 _ _ _ _ hlen).mp hhops
    refine ⟨hauth, hadm, hn, w₁, xs, w', hpay, hset, not_lt.mp hmin, ?_⟩
    simp [Store.settled, swapOps, swapRecord]
  · rintro ⟨hauth, hadm, hn, w₁, xs, w', hpay, hset, hmin, rfl⟩
    refine ⟨(), _, ⟨hauth, w₁, hpay, rfl⟩, _, _, ⟨rfl, rfl⟩, _, _, ⟨hadm, hn, rfl, rfl⟩, _, _,
      (forList_hop p.path 0 _ _ _ _ hlen).mpr ⟨xs, w', v, hset, rfl, rfl⟩, (), _,
      ⟨not_lt.mpr hmin, rfl⟩, (), _, rfl, (), _, rfl, rfl, ?_⟩
    simp [Store.settled, swapOps, swapRecord]

/-- **What a successful swap did, exactly.** -/
theorem swap_eq_ok_iff {h : Host σ} {c : Ctx} {p : SwapParams} {s s' : State σ} {v : Int} :
    swap h c p s = (.ok v, s') ↔
      Admitted h c p s ∧ s.store.nonce.getD 0 < U64_MAX ∧
        ∃ w₁ xs w', s.world.pay h.toTokens p.tokenIn p.trader c.self p.amountIn = some w₁ ∧
          Settles h c s.store.adapterOf p.trader p.path w₁ p.amountIn xs w' v ∧
          p.amountOutMin ≤ v ∧
          s' = { store := s.store.settled c (s.store.nonce.getD 0 + 1), world := w',
                 log := s.log ++ swapOps c p (s.store.nonce.getD 0 + 1) xs v } := by
  simp only [swap, Exec.bind_eq_ok, checkSwap_eq_ok]
  constructor
  · rintro ⟨_, _, ⟨had, rfl⟩, hok⟩
    obtain ⟨-, -, hn, hrest⟩ := (settle_eq_ok had.nonempty).mp hok
    exact ⟨had, hn, hrest⟩
  · rintro ⟨had, hn, hrest⟩
    exact ⟨(), s, ⟨had, rfl⟩, (settle_eq_ok had.nonempty).mpr
      ⟨Or.inr had.authorized, had.initialized, hn, hrest⟩⟩

end Stellariq.Router
