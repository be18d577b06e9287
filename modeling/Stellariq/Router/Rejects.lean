/-
# Bad requests are rejected before anything is touched

`swap` returns most of its error codes from the guards, and some of the same codes again
from inside the hop loop, where the step and the registry entry are looked up a second time.
An error there would come after the trader's tokens have moved.  `swap_rejects` says that it
never does: an error is either one of the guards' (`RouterError.isRejection`), and then the
call has not done anything yet, or one of `Overflow`, `SwapFailed` and `InsufficientOutput`
(`RouterError.isFailure`), and then the tokens had been pulled.  Both are about the call
before the host rolls it back.

The guards only read (`Exec.Reads`).  For the rest it is the registry that carries the
argument: no adapter can write it, so what the pre-check found is what every round of the hop
loop finds.  The state in which a round is entered is the end of `swapUntil`, and `swap` is
`swapUntil` and what remains of it (`swap_through`).
-/
import Stellariq.Kit.Leaves
import Stellariq.Router.Path
import Stellariq.TestAdapter

namespace Stellariq.Router

open Kit

variable {σ : Type} {h : Host σ} {c : Ctx} {p : SwapParams} {s : State σ}

/-! ## 1. The guards -/

theorem readAdmin_reads : Exec.Reads (fun e => e.isRejection = true) (readAdmin (σ := σ)) :=
  (Exec.reads_gets _).bind fun admin => Exec.reads_okOr admin rfl

theorem validatePath_error {a b : Address} {path : List SwapStep} {e : RouterError}
    (he : validatePath a b path = .error e) : e.isRejection = true := by
  cases validatePath_eq_error.mp he with
  | broken | negative | astray => rfl

theorem checkRegistered_reads (pre : Option SwapStep) :
    Exec.Reads (fun e => e.isRejection = true) (checkRegistered (σ := σ) pre) := by
  refine Exec.Reads.bind (Exec.reads_okOr pre rfl) fun pre => ?_
  exact Exec.Reads.bind (Exec.reads_gets _) fun _ => Exec.reads_failIf _ rfl

/-- **The guards only read**, and what they return is a rejection. -/
theorem checkSwap_reads (h : Host σ) (c : Ctx) (p : SwapParams) :
    Exec.Reads (fun e => e.isRejection = true) (checkSwap h c p) := by
  refine Exec.Reads.bind readAdmin_reads fun _ => ?_
  refine Exec.Reads.bind (Exec.reads_gets _) fun _ => ?_
  refine Exec.Reads.bind (Exec.reads_failIf _ rfl) fun _ => ?_
  refine Exec.Reads.bind (reads_requireAuth c p.trader) fun _ => ?_
  refine Exec.Reads.bind (Exec.reads_failIf _ rfl) fun _ => ?_
  refine Exec.Reads.bind (Exec.reads_failIf _ rfl) fun _ => ?_
  refine Exec.Reads.bind (Exec.reads_failIf _ rfl) fun _ => ?_
  refine Exec.Reads.bind (Exec.reads_failIf _ rfl) fun _ => ?_
  refine Exec.Reads.bind (Exec.reads_failIf _ rfl) fun _ => ?_
  refine Exec.Reads.bind (Exec.reads_ofExcept fun e he => validatePath_error he) fun _ => ?_
  refine Exec.Reads.bind ?_ fun _ => ?_
  · exact Exec.reads_forRange (fun i _ => checkRegistered_reads p.path[i]?) _ _ _
  · refine Exec.Reads.bind (reads_balance h.toTokens _ _) fun _ => ?_
    exact Exec.reads_failIf _ rfl

/-! ## 2. The hop loop -/

/-- What an error after the pull looks like: the log has come to `base`, which ends with the
pull. -/
def FailsAfter (base : List Op) (e : RouterError) (s' : State σ) : Prop :=
  e.isFailure = true ∧ base <+: s'.log

theorem trySwap_fails {base : List Op} {adapter : Address} {args : AdapterArgs}
    (hbase : base <+: s.log) : Exec.Fails (FailsAfter base) (trySwap h c adapter args) s := by
  intro e s' he
  unfold trySwap at he
  split at he
  · cases he
  · cases he
    exact ⟨rfl, hbase.trans (List.prefix_append _ _)⟩

/-- **One round of the hop loop** whose lookups succeed fails with one of the three codes. -/
theorem hop_fails {trader : Address} {last executionId i : Nat} {step : SwapStep} {q : Progress}
    {base : List Op} (hbase : base <+: s.log)
    (hreg : (s.store.adapterOf step.protocol).isSome = true) :
    Exec.Fails (FailsAfter base) (hop h c trader last executionId i (some step) q) s := by
  refine Exec.Fails.bind (Exec.fails_okOr (by simp)) fun step₁ s₁ h₁ => ?_
  obtain ⟨hstep, rfl⟩ := Exec.okOr_eq_ok.mp h₁
  obtain rfl := Option.some.inj hstep
  refine Exec.Fails.bind (Exec.fails_gets _) fun entry s₂ h₂ => ?_
  obtain ⟨rfl, rfl⟩ := Exec.gets_eq_ok.mp h₂
  refine Exec.Fails.bind (Exec.fails_okOr fun hnone => ?_) fun adapter s₃ h₃ => ?_
  · rw [hnone] at hreg
    cases hreg
  obtain ⟨-, rfl⟩ := Exec.okOr_eq_ok.mp h₃
  refine Exec.Fails.bind (fails_transfer _ _ _ _ _ _) fun _ s₄ h₄ => ?_
  have hbase₄ : base <+: s₄.log := by
    obtain ⟨-, w₁, -, rfl⟩ := transfer_eq_ok.mp h₄
    exact hbase.trans (List.prefix_append _ _)
  refine Exec.Fails.bind (fails_balance _ _ _) fun _ s₅ h₅ => ?_
  obtain ⟨-, -, rfl⟩ := balance_eq_ok.mp h₅
  refine Exec.Fails.bind (trySwap_fails hbase₄) fun _ s₆ h₆ => ?_
  have hbase₆ : base <+: s₆.log := by
    obtain ⟨w₂, -, rfl⟩ := trySwap_eq_ok.mp h₆
    exact hbase₄.trans (List.prefix_append _ _)
  refine Exec.Fails.bind (Exec.fails_failIf fun _ => ⟨rfl, hbase₆⟩) fun _ s₇ h₇ => ?_
  obtain ⟨-, rfl⟩ := Exec.failIf_eq_ok.mp h₇
  refine Exec.Fails.bind (fails_balance _ _ _) fun _ s₈ h₈ => ?_
  obtain ⟨-, -, rfl⟩ := balance_eq_ok.mp h₈
  refine Exec.Fails.bind (Exec.fails_okOr fun _ => ⟨rfl, hbase₆⟩) fun _ s₉ h₉ => ?_
  obtain ⟨-, rfl⟩ := Exec.okOr_eq_ok.mp h₉
  refine Exec.Fails.bind (Exec.fails_failIf fun _ => ⟨rfl, hbase₆⟩) fun _ s₁₀ h₁₀ => ?_
  obtain ⟨-, rfl⟩ := Exec.failIf_eq_ok.mp h₁₀
  refine Exec.Fails.bind (Exec.fails_failIf fun _ => ⟨rfl, hbase₆⟩) fun _ s₁₁ _ => ?_
  exact Exec.Fails.bind (Exec.fails_modify _) fun _ s₁₂ _ => Exec.fails_pure _

/-- A round of the hop loop leaves the storage alone. -/
theorem hop_store {trader : Address} {last executionId i : Nat} {step : Option SwapStep}
    {q q' : Progress} {s' : State σ}
    (hok : hop h c trader last executionId i step q s = (.ok q', s')) : s'.store = s.store := by
  cases step with
  | none =>
    obtain ⟨_, _, hnone, -⟩ := Exec.bind_eq_ok.mp hok
    cases (Exec.okOr_eq_ok.mp hnone).1
  | some step =>
    obtain ⟨_, _, -, -, rfl⟩ := hop_eq_ok.mp hok
    rfl

theorem rounds_store {trader : Address} {last executionId n i : Nat} {path : List SwapStep}
    {q q' : Progress} {s' : State σ}
    (hok : forRange (fun i q => hop h c trader last executionId i path[i]? q) i n q s
      = (.ok q', s')) : s'.store = s.store := by
  refine Exec.forRange_keeps (I := fun _ _ t => t.store = s.store) ?_ _ _ _ _ _ _ rfl hok
  intro i q t q' t' hI hround
  exact (hop_store hround).trans hI

/-- The hop loop keeps, of its state, that the log goes on from `base` and that the remaining
steps are registered. -/
structure Looping (base : List Op) (steps : List SwapStep) (s : State σ) : Prop where
  log : base <+: s.log
  registered : ∀ step ∈ steps, (s.store.adapterOf step.protocol).isSome = true

theorem Looping.hop {trader : Address} {last executionId i : Nat} {step : SwapStep}
    {steps : List SwapStep} {q q' : Progress} {base : List Op} {s' : State σ}
    (hI : Looping base (step :: steps) s)
    (hok : hop h c trader last executionId i (some step) q s = (.ok q', s')) :
    Looping base steps s' := by
  obtain ⟨x, w', -, -, rfl⟩ := hop_eq_ok.mp hok
  exact ⟨hI.log.trans (List.prefix_append _ _), (List.forall_mem_cons.mp hI.registered).2⟩

/-! ## 3. From the pull on -/

/-- An initialized router fails to hand out an execution id only when there is none left. -/
theorem nextNonce_fails {base : List Op} (hbase : base <+: s.log)
    (hinit : s.store.admin.isSome = true) : Exec.Fails (FailsAfter base) nextNonce s := by
  obtain ⟨admin, hadmin⟩ := Option.isSome_iff_exists.mp hinit
  have hpeek : peekNonce s = (.ok (s.store.nonce.getD 0), s) :=
    (Exec.bind_of_ok (readAdmin_eq_ok.mpr ⟨hadmin, rfl⟩)).trans rfl
  refine Exec.Fails.bind (fun e s' he => ?_) fun current s₁ h₁ => ?_
  · rw [hpeek] at he
    cases he
  rw [hpeek] at h₁
  cases h₁
  refine Exec.Fails.bind (Exec.fails_okOr fun _ => ⟨rfl, hbase⟩) fun next s₂ _ => ?_
  exact Exec.Fails.bind (Exec.fails_modify _) fun _ s₃ _ => Exec.fails_pure _

/-- **An admitted call fails after the pull only**, and with one of the three codes. -/
theorem settle_fails (had : Admitted h c p s) :
    Exec.Fails (fun e s' =>
        (∃ w, s.world.pay h.toTokens p.tokenIn p.trader c.self p.amountIn = some w) ∧
          FailsAfter (s.log ++ [.transfer p.tokenIn p.trader c.self p.amountIn]) e s')
      (settle h c p) s := by
  have hlast : checkedSub p.path.length 1 = some (p.path.length - 1) :=
    checkedSub_eq_some.mpr ⟨had.nonempty, rfl⟩
  refine Exec.Fails.bind (fails_transfer _ _ _ _ _ _) fun _ s₁ h₁ => ?_
  obtain ⟨-, w₁, hpay, rfl⟩ := transfer_eq_ok.mp h₁
  refine Exec.Fails.mono (Q := FailsAfter _) ?_ fun e s' he => ⟨⟨w₁, hpay⟩, he⟩
  refine Exec.Fails.bind (Exec.fails_okOr fun hnone => ?_) fun last s₂ h₂ => ?_
  · rw [hlast] at hnone
    cases hnone
  obtain ⟨hlen, rfl⟩ := Exec.okOr_eq_ok.mp h₂
  obtain ⟨hne, rfl⟩ := checkedSub_eq_some.mp hlen
  refine Exec.Fails.bind (nextNonce_fails (List.prefix_refl _) had.initialized) fun n s₃ h₃ => ?_
  obtain ⟨-, -, -, rfl⟩ := nextNonce_eq_ok.mp h₃
  have hstart : Looping (s.log ++ [.transfer p.tokenIn p.trader c.self p.amountIn]) p.path
      { store := { s.store with nonce := some n }
        world := w₁
        log := s.log ++ [.transfer p.tokenIn p.trader c.self p.amountIn] ++ [.write .nonce] } :=
    ⟨List.prefix_append _ _, had.registered⟩
  rw [hop_loop]
  refine Exec.Fails.bind ?_ fun q s₄ h₄ => ?_
  · refine Exec.fails_forList (I := fun steps _ s => Looping _ steps s) ?_ _ _ _ _ hstart
    intro i step steps q s' hI
    exact ⟨hop_fails hI.log (hI.registered step (List.mem_cons_self ..)), fun _ _ => hI.hop⟩
  · have hend : s.log ++ [.transfer p.tokenIn p.trader c.self p.amountIn] <+: s₄.log := by
      obtain ⟨_, _, _, -, -, rfl⟩ := (forList_hop p.path 0 _ _ _ _ (by omega)).mp h₄
      exact hstart.log.trans (List.prefix_append _ _)
    refine Exec.Fails.bind (Exec.fails_failIf fun _ => ⟨rfl, hend⟩) fun _ s₅ _ => ?_
    refine Exec.Fails.bind (Exec.fails_modify _) fun _ s₆ _ => ?_
    exact Exec.Fails.bind (Exec.fails_modify _) fun _ s₇ _ => Exec.fails_pure _

/-! ## 4. The two lookups of the hop loop -/

/-- `swap` up to the point where it enters round `i` of its hop loop. -/
def swapUntil (h : Host σ) (c : Ctx) (p : SwapParams) (i : Nat) : Call σ Progress := do
  checkSwap h c p
  transfer h.toTokens c p.tokenIn p.trader c.self p.amountIn
  let last ← Exec.okOr (checkedSub p.path.length 1) .emptyPath
  let executionId ← nextNonce
  forRange (fun i q => hop h c p.trader last executionId i p.path[i]? q) 0 i
    { protocols := [], hopAmountIn := p.amountIn }

/-- `swap` from round `i` of its hop loop on, under the execution id that it has taken. -/
def swapFrom (h : Host σ) (c : Ctx) (p : SwapParams) (i : Nat) (q : Progress) : Call σ Int := do
  let executionId ← Exec.gets fun s => s.store.nonce.getD 0
  let done ← forRange
    (fun i q => hop h c p.trader (p.path.length - 1) executionId i p.path[i]? q) i
    (p.path.length - i) q
  conclude c p executionId done

/-- **Every swap goes through `swapUntil`**: it fails as that does, or goes on with round `i`. -/
theorem swap_through {i : Nat} (hi : i ≤ p.path.length) :
    swap h c p s = (swapUntil h c p i >>= swapFrom h c p i) s := by
  have hopen (k : Progress → Call σ Int) : swapUntil h c p i >>= k =
      checkSwap h c p >>= fun _ =>
        transfer h.toTokens c p.tokenIn p.trader c.self p.amountIn >>= fun _ =>
          Exec.okOr (checkedSub p.path.length 1) .emptyPath >>= fun last =>
            nextNonce >>= fun executionId =>
              forRange (fun i q => hop h c p.trader last executionId i p.path[i]? q) 0 i
                { protocols := [], hopAmountIn := p.amountIn } >>= k := by
    unfold swapUntil
    simp only [Exec.bind_assoc]
  refine Eq.trans ?_ (congrFun (hopen _) s).symm
  refine Exec.bind_congr (I := fun _ => True) trivial fun _ s₁ _ _ => ?_
  refine Exec.bind_congr (I := fun _ => True) trivial fun _ s₂ _ _ => ?_
  refine Exec.bind_congr (I := fun _ => True) trivial fun last s₃ hlast _ => ?_
  refine Exec.bind_congr (I := fun _ => True) trivial fun executionId s₄ hnonce _ => ?_
  obtain ⟨hsub, -⟩ := Exec.okOr_eq_ok.mp hlast
  obtain ⟨-, rfl⟩ := checkedSub_eq_some.mp hsub
  obtain ⟨-, -, -, hs₄⟩ := nextNonce_eq_ok.mp hnonce
  -- the loop is cut before round `i`, and no round before it changes the nonce
  let round (i : Nat) (q : Progress) : Call σ Progress :=
    hop h c p.trader (p.path.length - 1) executionId i p.path[i]? q
  let start : Progress := { protocols := [], hopAmountIn := p.amountIn }
  have hcut : (forRange round 0 p.path.length start >>= conclude c p executionId)
      = forRange round 0 i start >>= fun q =>
          forRange round i (p.path.length - i) q >>= conclude c p executionId := by
    have hadd := Exec.forRange_add round i (p.path.length - i) 0 start
    rw [Nat.add_sub_cancel' hi, Nat.zero_add] at hadd
    rw [hadd, Exec.bind_assoc]
  refine (congrFun hcut s₄).trans ?_
  refine Exec.bind_congr (I := fun _ => True) trivial fun q s₅ hq _ => ?_
  have hstore : s₅.store = s₄.store := rounds_store hq
  have hid : (Exec.gets fun s => s.store.nonce.getD 0 : Call σ Nat) s₅
      = (.ok executionId, s₅) := Exec.gets_eq_ok.mpr ⟨by rw [hstore, hs₄, Option.getD_some], rfl⟩
  have hrest : swapFrom h c p i q s₅ = _ := Exec.bind_of_ok hid
  rw [hrest]

/-- Every round finds its step, and the adapter that the pre-check found. -/
theorem swapUntil_lookups {i : Nat} {q : Progress} {s' : State σ} (hi : i < p.path.length)
    (hok : swapUntil h c p i s = (.ok q, s')) :
    ∃ step adapter, p.path[i]? = some step ∧ s'.store.adapterOf step.protocol = some adapter := by
  simp only [swapUntil, Exec.bind_eq_ok] at hok
  obtain ⟨_, s₁, hcheck, _, s₂, hpull, last, s₃, hlast, executionId, s₄, hnonce, hloop⟩ := hok
  obtain ⟨had, rfl⟩ := checkSwap_eq_ok.mp hcheck
  obtain ⟨-, w₁, -, rfl⟩ := transfer_eq_ok.mp hpull
  obtain ⟨-, rfl⟩ := Exec.okOr_eq_ok.mp hlast
  obtain ⟨-, -, -, rfl⟩ := nextNonce_eq_ok.mp hnonce
  have hstore : s'.store.adapterOf = s₁.store.adapterOf :=
    (congrArg Store.adapterOf (rounds_store hloop)).trans rfl
  obtain ⟨step, hstep⟩ : ∃ step, p.path[i]? = some step := ⟨_, List.getElem?_eq_getElem hi⟩
  obtain ⟨adapter, hadapter⟩ := Option.isSome_iff_exists.mp
    (had.registered step (List.mem_of_getElem? hstep))
  exact ⟨step, adapter, hstep, by rw [hstore]; exact hadapter⟩

/-! ## 5. Rejected and failed swaps -/

/-- **Bad requests are rejected before anything is touched.**  A swap that ends with an error
code has either done nothing at all, and the code is a rejection, or it has pulled the
trader's tokens, and the code is `Overflow`, `SwapFailed` or `InsufficientOutput`.  No round of
the hop loop misses its step or its adapter. -/
theorem swap_rejects (h : Host σ) (c : Ctx) (p : SwapParams) (s : State σ) :
    (∀ e s', swap h c p s = (.err e, s') →
      (e.isRejection = true ∧ s' = s) ∨
      (e.isFailure = true ∧
        (∃ w, s.world.pay h.toTokens p.tokenIn p.trader c.self p.amountIn = some w) ∧
        s.log ++ [.transfer p.tokenIn p.trader c.self p.amountIn] <+: s'.log)) ∧
    ∀ i q s', i < p.path.length → swapUntil h c p i s = (.ok q, s') →
      ∃ step adapter, p.path[i]? = some step ∧
        s'.store.adapterOf step.protocol = some adapter := by
  refine ⟨?_, fun i q s' hi hok => swapUntil_lookups hi hok⟩
  have hguards : Exec.Fails (fun e s' => e.isRejection = true ∧ s' = s) (checkSwap h c p) s :=
    (checkSwap_reads h c p).fails
  refine Exec.Fails.bind (hguards.mono fun e s' => Or.inl) fun _ s₁ h₁ => ?_
  obtain ⟨had, rfl⟩ := checkSwap_eq_ok.mp h₁
  exact (settle_fails had).mono fun e s' ⟨hpaid, hlate, hlog⟩ => Or.inr ⟨hlate, hpaid, hlog⟩

section Witness

open TestAdapter.Fixture

/-- Without funds the two-hop swap is rejected; with them its second round is reached. -/
theorem swap_rejects_twoHops :
    (∃ s', swap chain ctx twoHops (setup []) = (.err .insufficientBalance, s') ∧ s' = setup []) ∧
      ∃ q s' step adapter, swapUntil chain ctx twoHops 1 funded = (.ok q, s') ∧
        twoHops.path[1]? = some step ∧ s'.store.adapterOf step.protocol = some adapter := by
  have hpoor : swap chain ctx twoHops (setup []) =
      (.err .insufficientBalance, (swap chain ctx twoHops (setup [])).2) :=
    Prod.ext (by decide +kernel) rfl
  refine ⟨⟨_, hpoor, ?_⟩, ?_⟩
  · obtain ⟨-, hsame⟩ | ⟨hlate, -⟩ :=
      (swap_rejects chain ctx twoHops (setup [])).1 _ _ hpoor
    · exact hsame
    · cases hlate
  · obtain ⟨q, hok⟩ : ∃ q, swapUntil chain ctx twoHops 1 funded =
        (.ok q, (swapUntil chain ctx twoHops 1 funded).2) :=
      Exec.exists_ok_of_isOk (by decide +kernel)
    obtain ⟨step, adapter, hstep, hadapter⟩ :=
      (swap_rejects chain ctx twoHops funded).2 1 q _ (by decide) hok
    exact ⟨q, _, step, adapter, hok, hstep, hadapter⟩

end Witness

end Stellariq.Router
