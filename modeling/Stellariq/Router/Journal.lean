/-
# Execution ids

The nonce counts the successful swaps, and the id of a swap is the nonce it leaves.  So in the
event log of a whole run, the events that carry the id `k` are the events of the `k`-th
successful swap, in order and without any others: the log is the settlements one after the other,
interleaved with lifecycle events, which carry no id (`Journaled`).
-/
import Stellariq.Router.Transactions

namespace Stellariq.Router

open Kit

variable {σ : Type} {h : Host σ} {c : Ctx} {self : Address}

/-! ## 1. Settlements in a run -/

/-- The arguments and the events of a swap that succeeded. -/
def swapDone? : RouterLabel σ → Option (SwapParams × List RouterEvent)
  | .tx ⟨_, _, .swap p, .ok _, ops⟩ => some (p, eventsOf ops)
  | _ => none

/-- The successful swaps of a run, in order. -/
def swapsDone (ls : List (RouterLabel σ)) : List (SwapParams × List RouterEvent) :=
  ls.filterMap swapDone?

/-- One record for each hop of `p`, then one summary, all with the same id. -/
def IsSettlement (executionId : Nat) (p : SwapParams) (es : List RouterEvent) : Prop :=
  ∃ (hops : List HopExecuted) (summary : SwapExecuted),
    es = hops.map .hopExecuted ++ [.swapExecuted summary] ∧ hops.length = p.path.length ∧
      (∀ r ∈ hops, r.executionId = executionId) ∧ summary.executionId = executionId

/-- The events of a log that carry an id. -/
def withId (executionId : Nat) (es : List RouterEvent) : List RouterEvent :=
  es.filter fun e => e.executionId? = some executionId

theorem withId_append (k : Nat) (es es' : List RouterEvent) :
    withId k (es ++ es') = withId k es ++ withId k es' := List.filter_append ..

theorem withId_of_none {k : Nat} {es : List RouterEvent}
    (hnone : ∀ e ∈ es, e.executionId? = none) : withId k es = [] := by
  refine List.filter_eq_nil_iff.mpr ?_
  intro e he
  rw [hnone e he]
  simp

/-- The events of a settlement all carry its id. -/
theorem IsSettlement.executionId? {k : Nat} {p : SwapParams} {es : List RouterEvent}
    (hs : IsSettlement k p es) : ∀ e ∈ es, e.executionId? = some k := by
  obtain ⟨hops, summary, rfl, -, hhops, hsummary⟩ := hs
  intro e he
  rcases List.mem_append.mp he with he | he
  · obtain ⟨r, hr, rfl⟩ := List.mem_map.mp he
    exact congrArg some (hhops r hr)
  · obtain rfl := List.mem_singleton.mp he
    exact congrArg some hsummary

theorem IsSettlement.withId_self {k : Nat} {p : SwapParams} {es : List RouterEvent}
    (hs : IsSettlement k p es) : withId k es = es := by
  refine List.filter_eq_self.mpr ?_
  intro e he
  simp [hs.executionId? e he]

theorem IsSettlement.withId_of_ne {k j : Nat} {p : SwapParams} {es : List RouterEvent}
    (hs : IsSettlement k p es) (hj : j ≠ k) : withId j es = [] := by
  refine List.filter_eq_nil_iff.mpr ?_
  intro e he
  simp [hs.executionId? e he, hj.symm]

/-- The events of a settled route are a settlement. -/
theorem isSettlement_swapOps {p : SwapParams} {executionId : Nat} {xs : List AdapterCall} {v : Int}
    (hlen : xs.length = p.path.length) :
    IsSettlement executionId p (eventsOf (swapOps c p executionId xs v)) := by
  refine ⟨_, _, eventsOf_swapOps, length_routeRecords p.path xs 0 hlen, ?_, rfl⟩
  intro r hr
  obtain ⟨k, hk⟩ := List.getElem?_of_mem hr
  obtain ⟨_, _, -, -, rfl⟩ := (routeRecords_getElem? p.path xs 0 k).mp hk
  rfl

/-! ## 2. One step -/

/-- The events of the other entrypoints carry no id. -/
theorem Performs.silent {i : Invocation} {v : Value} {b : Chain Store σ} {s' : State σ}
    (hp : Performs h c b.start i v s') (hi : ∀ p, i ≠ .swap p) :
    ∀ e ∈ eventsOf s'.log, e.executionId? = none := by
  cases hp with
  | initializeRouter => simp [eventsOf, Chain.start, HostOp.event?, RouterEvent.executionId?]
  | setAdmin => simp [eventsOf, Chain.start, HostOp.event?, RouterEvent.executionId?]
  | setPaused => simp [eventsOf, Chain.start, HostOp.event?, RouterEvent.executionId?]
  | setProtocol => simp [eventsOf, Chain.start, HostOp.event?, RouterEvent.executionId?]
  | removeProtocol => simp [eventsOf, Chain.start, HostOp.event?, RouterEvent.executionId?]
  | upgrade => simp [eventsOf, Chain.start, HostOp.event?, RouterEvent.executionId?]
  | view => simp [eventsOf, Chain.start]
  | swap => exact absurd rfl (hi _)

/-- The other entrypoints leave the nonce alone; the first initialization sets it to 0. -/
theorem Performs.nonce {i : Invocation} {v : Value} {s s' : State σ}
    (hp : Performs h c s i v s') (hi : ∀ p, i ≠ .swap p) :
    s'.store.nonce = s.store.nonce ∧ s'.store.admin.isSome = s.store.admin.isSome ∨
      s.store.admin = none ∧ s'.store.nonce = some 0 ∧ s'.store.admin.isSome = true := by
  cases hp with
  | initializeRouter hnone => exact Or.inr ⟨hnone, rfl, rfl⟩
  | setAdmin hadm => exact Or.inl ⟨rfl, by rw [hadm]; rfl⟩
  | setPaused => exact Or.inl ⟨rfl, rfl⟩
  | setProtocol => exact Or.inl ⟨rfl, rfl⟩
  | removeProtocol => exact Or.inl ⟨rfl, rfl⟩
  | upgrade => exact Or.inl ⟨rfl, rfl⟩
  | view => exact Or.inl ⟨rfl, rfl⟩
  | swap => exact absurd rfl (hi _)

/-- **What a step does to the nonce and the log.**  Either it is no successful swap: then its
events carry no id, and the nonce stays, or is set to 0 by the first initialization.  Or it is one:
then the nonce grows by one, and the events are a settlement with the new nonce as the id. -/
theorem step_journal {b b' : Chain Store σ} {l : RouterLabel σ} (hstep : Step self b l b') :
    (swapDone? l = none ∧ (∀ e ∈ l.events, e.executionId? = none) ∧
      (b'.store.nonce = b.store.nonce ∧ b'.store.admin.isSome = b.store.admin.isSome ∨
        b.store.admin = none ∧ b'.store.nonce = some 0 ∧ b'.store.admin.isSome = true)) ∨
    ∃ p, swapDone? l = some (p, l.events) ∧ b.store.admin.isSome = true ∧
      b'.store.admin = b.store.admin ∧ b'.store.nonce = some (b.store.nonce.getD 0 + 1) ∧
      IsSettlement (b.store.nonce.getD 0 + 1) p l.events := by
  cases hstep with
  | elsewhere => exact Or.inl ⟨rfl, by simp [Label.events], Or.inl ⟨rfl, rfl⟩⟩
  | @failed h c i o _ _ _ _ ho =>
    refine Or.inl ⟨?_, by simp [Label.events, eventsOf], Or.inl ⟨rfl, rfl⟩⟩
    unfold swapDone?
    split
    · rename_i heq
      cases heq
      cases ho
    · rfl
  | @returned h c i v s _ _ _ hd =>
    have hp := dispatch_performs hd
    by_cases hi : ∃ p, i = .swap p
    · obtain ⟨p, rfl⟩ := hi
      cases hp with
      | swap had hn hpay hset hmin =>
        exact Or.inr ⟨p, rfl, had.initialized, rfl, rfl, isSettlement_swapOps hset.length_eq⟩
      | view hview => cases hview
    · have hi' : ∀ p, i ≠ .swap p := fun p hp => hi ⟨p, hp⟩
      refine Or.inl ⟨?_, hp.silent hi', hp.nonce hi'⟩
      unfold swapDone?
      split
      · rename_i heq
        cases heq
        exact absurd rfl (hi' _)
      · rfl

/-! ## 3. Whole runs -/

/-- The nonce counts the settlements, the `k`-th settlement has the id `k`, and under that id the
log has nothing else. -/
structure Journaled (ls : List (RouterLabel σ)) (b : Chain Store σ) : Prop where
  nonce : b.store.nonce =
    if b.store.admin.isSome = true then some (swapsDone ls).length else none
  fresh : b.store.admin = none → swapsDone ls = []
  ids : ∀ k q, (swapsDone ls)[k]? = some q → IsSettlement (k + 1) q.1 q.2
  unused : withId 0 (journal ls) = []
  grouped : ∀ k, withId (k + 1) (journal ls) = (((swapsDone ls)[k]?).map Prod.snd).getD []

theorem Journaled.getD {ls : List (RouterLabel σ)} {b : Chain Store σ} (hj : Journaled ls b) :
    b.store.nonce.getD 0 = (swapsDone ls).length := by
  rw [hj.nonce]
  by_cases hadm : b.store.admin.isSome = true
  · rw [if_pos hadm, Option.getD_some]
  · rw [if_neg hadm, hj.fresh (Option.not_isSome_iff_eq_none.mp hadm)]
    rfl

/-- A step that settles no swap keeps the journal as it is. -/
theorem Journaled.silent {ls : List (RouterLabel σ)} {b b' : Chain Store σ} {l : RouterLabel σ}
    (hj : Journaled ls b) (hl : swapDone? l = none) (hev : ∀ e ∈ l.events, e.executionId? = none)
    (hst : b'.store.nonce = b.store.nonce ∧ b'.store.admin.isSome = b.store.admin.isSome ∨
      b.store.admin = none ∧ b'.store.nonce = some 0 ∧ b'.store.admin.isSome = true) :
    Journaled (ls ++ [l]) b' := by
  have hswaps : swapsDone (ls ++ [l]) = swapsDone ls := by
    simp [swapsDone, hl]
  have hids (k : Nat) : withId k (journal (ls ++ [l])) = withId k (journal ls) := by
    rw [journal_snoc, withId_append, withId_of_none hev, List.append_nil]
  refine ⟨?_, ?_, ?_, ?_, ?_⟩
  · rw [hswaps]
    rcases hst with ⟨hn, hadm⟩ | ⟨hnone, hn, hadm⟩
    · rw [hn, hadm, hj.nonce]
    · rw [hn, if_pos hadm, hj.fresh hnone]
      rfl
  · intro hnone
    rw [hswaps]
    refine hj.fresh (Option.not_isSome_iff_eq_none.mp fun hsome => ?_)
    rcases hst with ⟨-, hadm⟩ | ⟨-, -, hadm⟩
    · rw [hnone, hsome] at hadm
      cases hadm
    · rw [hnone] at hadm
      cases hadm
  · rw [hswaps]
    exact hj.ids
  · rw [hids]
    exact hj.unused
  · intro k
    rw [hids, hswaps]
    exact hj.grouped k

/-- A settlement is entered in the journal under the next id. -/
theorem Journaled.settled {ls : List (RouterLabel σ)} {b b' : Chain Store σ} {l : RouterLabel σ}
    {p : SwapParams} (hj : Journaled ls b) (hl : swapDone? l = some (p, l.events))
    (hadm : b.store.admin.isSome = true) (hadm' : b'.store.admin = b.store.admin)
    (hn : b'.store.nonce = some (b.store.nonce.getD 0 + 1))
    (hes : IsSettlement (b.store.nonce.getD 0 + 1) p l.events) : Journaled (ls ++ [l]) b' := by
  have hswaps : swapsDone (ls ++ [l]) = swapsDone ls ++ [(p, l.events)] := by
    simp [swapsDone, hl]
  rw [hj.getD] at hn hes
  refine ⟨?_, ?_, ?_, ?_, ?_⟩
  · rw [hn, hadm', if_pos hadm, hswaps, List.length_append, List.length_singleton]
  · intro hnone
    rw [← hadm', hnone] at hadm
    cases hadm
  · intro k q hq
    rw [hswaps] at hq
    by_cases hk : k < (swapsDone ls).length
    · rw [List.getElem?_append_left hk] at hq
      exact hj.ids k q hq
    · rw [List.getElem?_append_right (not_lt.mp hk), List.getElem?_singleton] at hq
      split at hq
      · obtain rfl := Option.some.inj hq
        rw [show k = (swapsDone ls).length by omega]
        exact hes
      · cases hq
  · rw [journal_snoc, withId_append, hj.unused, hes.withId_of_ne (by omega)]
    rfl
  · intro k
    rw [journal_snoc, withId_append, hj.grouped k, hswaps]
    rcases Nat.lt_trichotomy k (swapsDone ls).length with hk | hk | hk
    · rw [List.getElem?_append_left hk, hes.withId_of_ne (by omega), List.append_nil]
    · rw [hk, hes.withId_self, List.getElem?_concat_length, List.getElem?_eq_none (le_refl _)]
      rfl
    · rw [hes.withId_of_ne (by omega), List.append_nil, List.getElem?_eq_none (by omega),
        List.getElem?_eq_none (by simp; omega)]

/-- **Every run keeps the journal.** -/
theorem journaled_of_runs {ls : List (RouterLabel σ)} {b b' : Chain Store σ} {n : Nat}
    (h0 : b.store = Store.deployed n) (hrun : Runs (Step self) b ls b') : Journaled ls b' := by
  refine Runs.invariant_labels (fun ls b l b' hj hstep => ?_) hrun ?_
  · rcases step_journal hstep with ⟨hl, hev, hst⟩ | ⟨p, hl, hadm, hadm', hn, hes⟩
    · exact hj.silent hl hev hst
    · exact hj.settled hl hadm hadm' hn hes
  · refine ⟨?_, fun _ => rfl, fun k q hq => ?_, rfl, fun k => rfl⟩
    · rw [h0]
      rfl
    · cases hq

theorem nextNonce_overflow {s : State σ} (hadm : s.store.admin.isSome = true)
    (hn : U64_MAX ≤ s.store.nonce.getD 0) : nextNonce s = (.err .overflow, s) := by
  obtain ⟨a, ha⟩ := Option.isSome_iff_exists.mp hadm
  have hpeek : peekNonce s = (.ok (s.store.nonce.getD 0), s) := by
    rw [peekNonce, Exec.bind_of_ok (readAdmin_eq_ok.mpr ⟨ha, rfl⟩)]
    rfl
  have hover : checkedU64 (s.store.nonce.getD 0 + 1) = none := by
    rw [checkedU64, if_neg (by omega)]
  rw [nextNonce, Exec.bind_of_ok hpeek, hover]
  rfl

/-- A swap that gets past its guards and the pull, with the ids used up. -/
theorem swap_overflow {p : SwapParams} {s : State σ} {w₁ : World σ} (had : Admitted h c p s)
    (hpay : s.world.pay h.toTokens p.tokenIn p.trader c.self p.amountIn = some w₁)
    (hn : U64_MAX ≤ s.store.nonce.getD 0) : (swap h c p s).1 = .err .overflow := by
  have hcheck : checkSwap h c p s = (.ok (), s) := checkSwap_eq_ok.mpr ⟨had, rfl⟩
  have hpull : transfer h.toTokens c p.tokenIn p.trader c.self p.amountIn s
      = ((.ok (), { s with
          world := w₁
          log := s.log ++ [.transfer p.tokenIn p.trader c.self p.amountIn] }) :
        Outcome RouterError Unit × State σ) :=
    transfer_eq_ok.mpr ⟨Or.inr had.authorized, w₁, hpay, rfl⟩
  have hlast : checkedSub p.path.length 1 = some (p.path.length - 1) :=
    checkedSub_eq_some.mpr ⟨had.nonempty, rfl⟩
  have hnonce : nextNonce ({ s with
        world := w₁
        log := s.log ++ [.transfer p.tokenIn p.trader c.self p.amountIn] } : State σ)
      = (.err .overflow, _) := nextNonce_overflow had.initialized hn
  rw [swap, Exec.bind_of_ok hcheck, settle, Exec.bind_of_ok hpull,
    Exec.bind_of_ok (Exec.okOr_eq_ok.mpr ⟨hlast, rfl⟩), Exec.bind_of_err hnonce]

/-- **Execution ids are gapless and never reused.**  In every run from deployment the nonce is the
number of successful swaps, the `k`-th of them carries the id `k`, and the events of the log under
that id are exactly its own.  No other step changes the nonce, and once the ids are used up a swap
that gets that far fails. -/
theorem execution_ids_gapless {ls : List (RouterLabel σ)} {b b' : Chain Store σ} {n : Nat}
    (h0 : b.store = Store.deployed n) (hrun : Runs (Step self) b ls b') :
    b'.store.nonce.getD 0 = (swapsDone ls).length ∧
      (b'.store.admin.isSome = true → b'.store.nonce = some (swapsDone ls).length) ∧
      (∀ k q, (swapsDone ls)[k]? = some q → IsSettlement (k + 1) q.1 q.2) ∧
      (∀ k q, (swapsDone ls)[k]? = some q → withId (k + 1) (journal ls) = q.2) ∧
      (∀ k, k = 0 ∨ (swapsDone ls).length < k → withId k (journal ls) = []) ∧
      (∀ l b'', Step self b' l b'' → swapDone? l = none →
        b''.store.nonce.getD 0 = b'.store.nonce.getD 0 ∧
          (b'.store.admin.isSome = true → b''.store.nonce = b'.store.nonce)) ∧
      (b'.store.nonce = some U64_MAX → ∀ (h : Host σ) (c : Ctx) (p : SwapParams) (w₁ : World σ),
        Admitted h c p b'.start →
        b'.world.pay h.toTokens p.tokenIn p.trader c.self p.amountIn = some w₁ →
        (swap h c p b'.start).1 = .err .overflow) := by
  have hj := journaled_of_runs h0 hrun
  refine ⟨hj.getD, ?_, hj.ids, ?_, ?_, ?_, ?_⟩
  · intro hadm
    rw [hj.nonce, if_pos hadm]
  · intro k q hq
    rw [hj.grouped k, hq]
    rfl
  · intro k hk
    cases k with
    | zero => exact hj.unused
    | succ k =>
      have hlen : (swapsDone ls).length ≤ k := by omega
      rw [hj.grouped k, List.getElem?_eq_none hlen]
      rfl
  · intro l b'' hstep hl
    rcases step_journal hstep with ⟨-, -, hst⟩ | ⟨p, hp, -⟩
    · rcases hst with ⟨hn, -⟩ | ⟨hnone, hn, -⟩
      · exact ⟨by rw [hn], fun _ => hn⟩
      · have h1 : b'.store.nonce = none := by
          rw [hj.nonce, hnone]
          rfl
        refine ⟨by rw [hn, h1]; rfl, ?_⟩
        intro hadm
        rw [hnone] at hadm
        cases hadm
    · rw [hl] at hp
      cases hp
  · intro hn h c p w₁ had hpay
    refine swap_overflow had hpay ?_
    show U64_MAX ≤ b'.store.nonce.getD 0
    rw [hn, Option.getD_some]

theorem execution_ids_gapless_launch :
    Launch.launched.store.nonce.getD 0 = 1 ∧ withId 2 (journal Launch.log) = [] := by
  have hone : (swapsDone Launch.log).length = 1 := by decide +kernel
  obtain ⟨hn, -, -, -, hnone, -, -⟩ := execution_ids_gapless rfl Launch.runs
  exact ⟨hn.trans hone, hnone 2 (Or.inr (by omega))⟩

end Stellariq.Router
