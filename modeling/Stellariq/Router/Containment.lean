/-
# Removing an adapter contains it

The answer to a faulty adapter is to remove it from the registry.  From then on, until somebody
registers it again, it takes no part in anything the router does: `removed_adapter_contained` says
that the router does not even try to call it or to send it tokens, in calls that fail as little as
in calls that return, and that every run is also a run with any other contract in its place.

The attempts are covered by one invariant of a running call (`Contained`), kept by every entrypoint
however it ends; the other contract in its place by running each swap twice (`swap_reprogram`),
where only the adapter call itself could tell the difference.
-/
import Stellariq.Router.Audit
import Stellariq.Kit.Leaves

namespace Stellariq.Router

open Kit

variable {σ : Type} {h : Host σ} {c : Ctx} {self x : Address}

/-! ## 1. Running calls that leave an adapter alone -/

def Unregistered (x : Address) (st : Store) : Prop := ∀ p, st.adapterOf p ≠ some x

/-- The adapter `x` is not registered, and the call has not called it and has sent it no tokens. -/
structure Contained (x : Address) (s : State σ) : Prop where
  unregistered : Unregistered x s.store
  calls : ∀ y ∈ callsOf s.log, y.adapter ≠ x
  transfers : ∀ m ∈ transfersOf s.log, m.2.2.1 ≠ x

theorem contained_start {b : Chain Store σ} (hb : Unregistered x b.store) :
    Contained x (b.start : State σ) :=
  ⟨hb, by simp [Chain.start, callsOf], by simp [Chain.start, transfersOf]⟩

section Contained

variable {s : State σ}

/-- One more operation, which is neither a call of `x` nor a transfer to it. -/
theorem Contained.snoc (hs : Contained x s) {st : Store} (hst : Unregistered x st) (w : World σ)
    {op : Op} (hcall : ∀ y, op.call? = some y → y.adapter ≠ x)
    (htransfer : ∀ m, op.transfer? = some m → m.2.2.1 ≠ x) :
    Contained x { store := st, world := w, log := s.log ++ [op] } where
  unregistered := hst
  calls y hy := by
    rw [callsOf_append, List.mem_append] at hy
    rcases hy with hy | hy
    · exact hs.calls y hy
    · obtain ⟨op', hop', hy⟩ := List.mem_filterMap.mp hy
      rw [List.mem_singleton.mp hop'] at hy
      exact hcall y hy
  transfers m hm := by
    rw [transfersOf_append, List.mem_append] at hm
    rcases hm with hm | hm
    · exact hs.transfers m hm
    · obtain ⟨op', hop', hm⟩ := List.mem_filterMap.mp hm
      rw [List.mem_singleton.mp hop'] at hm
      exact htransfer m hm

theorem Contained.write (hs : Contained x s) {st : Store} (hst : Unregistered x st) (k : DataKey) :
    Contained x { s with store := st, log := s.log ++ [.write k] } :=
  hs.snoc hst s.world (fun _ h => by cases h) fun _ h => by cases h

theorem Contained.publish (hs : Contained x s) (e : RouterEvent) :
    Contained x { s with log := s.log ++ [.event e] } :=
  hs.snoc hs.unregistered s.world (fun _ h => by cases h) fun _ h => by cases h

theorem Contained.touch (hs : Contained x s) {st : Store} (hst : Unregistered x st) :
    Contained x { s with store := st } :=
  ⟨hst, hs.calls, hs.transfers⟩

/-- Replacing the entry of one protocol by one that is not `x`. -/
theorem Unregistered.setEntry {st : Store} (hst : Unregistered x st) {p : Symbol}
    {e : Option (Entry Address)} (he : ∀ a, e = some a → a.val ≠ x) :
    Unregistered x (st.setEntry p e) := by
  intro p'
  by_cases hp : p' = p
  · subst hp
    cases e with
    | none => simp [Store.adapterOf, Store.setEntry]
    | some a => simpa [Store.adapterOf, Store.setEntry] using he a rfl
  · simpa [Store.adapterOf, Store.setEntry, hp] using hst p'

/-! ## 2. The entrypoints -/

theorem leaves_readAdmin (hs : Contained x s) :
    Exec.Leaves (Contained x) (readAdmin : Call σ Address) s :=
  (Exec.leaves_gets hs _).bind fun _ _ _ hs => Exec.leaves_okOr hs _ _

theorem leaves_extendInstance (hs : Contained x s) :
    Exec.Leaves (Contained x) (extendInstance c : Call σ Unit) s :=
  leaves_touch (hs.touch hs.unregistered)

theorem leaves_nextNonce (hs : Contained x s) :
    Exec.Leaves (Contained x) (nextNonce : Call σ Nat) s := by
  refine Exec.Leaves.bind ?_ fun _ _ _ hs => ?_
  · exact (leaves_readAdmin hs).bind fun _ _ _ hs => Exec.leaves_gets hs _
  · refine (Exec.leaves_okOr hs _ _).bind fun _ _ _ hs => ?_
    refine (leaves_write (hs.write ?_ _)).bind fun _ _ _ hs => Exec.leaves_pure hs _
    exact hs.unregistered

theorem leaves_send (hs : Contained x s) {T : Tokens σ} {t src dst : Address} {a : Int}
    (hdst : dst ≠ x) : Exec.Leaves (Contained x) (transfer T c t src dst a : Call σ Unit) s :=
  leaves_transfer hs fun w _ =>
    hs.snoc hs.unregistered w (fun _ h => by cases h) fun _ h => by cases h; exact hdst

theorem leaves_trySwap (hs : Contained x s) {adapter : Address} (hne : adapter ≠ x)
    (args : AdapterArgs) :
    Exec.Leaves (Contained x) (trySwap h c adapter args) s := by
  unfold Exec.Leaves trySwap
  split
  · exact hs.snoc hs.unregistered _ (fun _ h => by cases h; exact hne) fun _ h => by cases h
  · exact hs.snoc hs.unregistered _ (fun _ h => by cases h; exact hne) fun _ h => by cases h

theorem leaves_hop (hs : Contained x s) {trader : Address} {last executionId i : Nat}
    {step : Option SwapStep} {q : Progress} :
    Exec.Leaves (Contained x) (hop h c trader last executionId i step q) s := by
  refine (Exec.leaves_okOr hs _ _).bind fun step _ _ hs => ?_
  refine (Exec.leaves_gets hs _).bind fun entry _ hentry hs => ?_
  obtain ⟨rfl, rfl⟩ := Exec.gets_eq_ok.mp hentry
  refine (Exec.leaves_okOr hs _ _).bind fun adapter _ hadapter hs => ?_
  obtain ⟨hreg, rfl⟩ := Exec.okOr_eq_ok.mp hadapter
  have hne : adapter ≠ x := fun he => hs.unregistered _ (he ▸ hreg)
  refine (leaves_send hs hne).bind fun _ _ _ hs => ?_
  refine (leaves_balance hs _ _ _).bind fun _ _ _ hs => ?_
  refine (leaves_trySwap hs hne _).bind fun _ _ _ hs => ?_
  refine (Exec.leaves_failIf hs _ _).bind fun _ _ _ hs => ?_
  refine (leaves_balance hs _ _ _).bind fun _ _ _ hs => ?_
  refine (Exec.leaves_okOr hs _ _).bind fun _ _ _ hs => ?_
  refine (Exec.leaves_failIf hs _ _).bind fun _ _ _ hs => ?_
  refine (Exec.leaves_failIf hs _ _).bind fun _ _ _ hs => ?_
  exact (leaves_publish (hs.publish _)).bind fun _ _ _ hs => Exec.leaves_pure hs _

theorem leaves_checkSwap (hs : Contained x s) {p : SwapParams} :
    Exec.Leaves (Contained x) (checkSwap h c p) s := by
  refine (leaves_readAdmin hs).bind fun _ _ _ hs => ?_
  refine (Exec.leaves_gets hs _).bind fun _ _ _ hs => ?_
  refine (Exec.leaves_failIf hs _ _).bind fun _ _ _ hs => ?_
  refine (leaves_requireAuth hs _ _).bind fun _ _ _ hs => ?_
  refine (Exec.leaves_failIf hs _ _).bind fun _ _ _ hs => ?_
  refine (Exec.leaves_failIf hs _ _).bind fun _ _ _ hs => ?_
  refine (Exec.leaves_failIf hs _ _).bind fun _ _ _ hs => ?_
  refine (Exec.leaves_failIf hs _ _).bind fun _ _ _ hs => ?_
  refine (Exec.leaves_failIf hs _ _).bind fun _ _ _ hs => ?_
  refine (Exec.leaves_ofExcept hs _).bind fun _ _ _ hs => ?_
  refine (Exec.leaves_forRange (fun i _ s hs => ?_) _ _ _ _ hs).bind fun _ _ _ hs => ?_
  · refine (Exec.leaves_okOr hs _ _).bind fun _ _ _ hs => ?_
    refine (Exec.leaves_gets hs _).bind fun _ _ _ hs => ?_
    exact Exec.leaves_failIf hs _ _
  · refine (leaves_balance hs _ _ _).bind fun _ _ _ hs => ?_
    exact Exec.leaves_failIf hs _ _

/-- A swap, as far as it gets: what it sends, it sends to itself or to a registered adapter. -/
theorem leaves_swap (hs : Contained x s) (hx : x ≠ c.self) {p : SwapParams} :
    Exec.Leaves (Contained x) (swap h c p) s := by
  refine (leaves_checkSwap hs).bind fun _ _ _ hs => ?_
  refine (leaves_send hs hx.symm).bind fun _ _ _ hs => ?_
  refine (Exec.leaves_okOr hs _ _).bind fun _ _ _ hs => ?_
  refine (leaves_nextNonce hs).bind fun _ _ _ hs => ?_
  refine (Exec.leaves_forRange (I := Contained x) (fun i q s hs => leaves_hop hs) _ _ _ _ hs).bind
    fun _ _ _ hs => ?_
  refine (Exec.leaves_failIf hs _ _).bind fun _ _ _ hs => ?_
  refine (leaves_publish (hs.publish _)).bind fun _ _ _ hs => ?_
  exact (leaves_extendInstance hs).bind fun _ _ _ hs => Exec.leaves_pure hs _

/-- The admin's entrypoints begin alike. -/
theorem leaves_asAdmin {f : Address → Call σ Unit} (hs : Contained x s)
    (hf : ∀ a s, Contained x s → Exec.Leaves (Contained x) (f a) s) :
    Exec.Leaves (Contained x) (readAdmin >>= fun a => requireAuth c a >>= fun _ => f a) s :=
  (leaves_readAdmin hs).bind fun a _ _ hs =>
    (leaves_requireAuth hs _ _).bind fun _ _ _ hs => hf a _ hs

/-- **Every attempt leaves `x` alone**, unless it is to register it. -/
theorem dispatch_contained (hs : Contained x s) (hx : x ≠ c.self) {i : Invocation}
    (hi : ∀ p, i ≠ .setProtocol p x) : Exec.Leaves (Contained x) (dispatch h c i) s := by
  cases i with
  | initializeRouter admin =>
    refine Exec.Leaves.bind ?_ fun _ _ _ hs => Exec.leaves_pure hs _
    refine (Exec.leaves_gets hs _).bind fun _ _ _ hs => ?_
    refine (Exec.leaves_failIf hs _ _).bind fun _ _ _ hs => ?_
    refine (leaves_write (hs.write ?_ _)).bind fun _ _ _ hs => ?_
    · exact hs.unregistered
    refine (leaves_write (hs.write ?_ _)).bind fun _ _ _ hs => ?_
    · exact hs.unregistered
    refine (leaves_write (hs.write ?_ _)).bind fun _ _ _ hs => ?_
    · exact hs.unregistered
    exact (leaves_extendInstance hs).bind fun _ _ _ hs => leaves_publish (hs.publish _)
  | setAdmin newAdmin =>
    refine Exec.Leaves.bind (leaves_asAdmin hs fun _ s hs => ?_)
      fun _ _ _ hs => Exec.leaves_pure hs _
    refine (Exec.leaves_failIf hs _ _).bind fun _ _ _ hs => ?_
    refine (leaves_write (hs.write ?_ _)).bind fun _ _ _ hs => ?_
    · exact hs.unregistered
    exact (leaves_extendInstance hs).bind fun _ _ _ hs => leaves_publish (hs.publish _)
  | setPaused paused =>
    refine Exec.Leaves.bind (leaves_asAdmin hs fun _ s hs => ?_)
      fun _ _ _ hs => Exec.leaves_pure hs _
    refine (leaves_write (hs.write ?_ _)).bind fun _ _ _ hs => ?_
    · exact hs.unregistered
    exact (leaves_extendInstance hs).bind fun _ _ _ hs => leaves_publish (hs.publish _)
  | setProtocol protocol adapter =>
    have hne : adapter ≠ x := fun he => hi protocol (by rw [he])
    refine Exec.Leaves.bind (leaves_asAdmin hs fun _ s hs => ?_)
      fun _ _ _ hs => Exec.leaves_pure hs _
    refine (leaves_write (hs.write ?_ _)).bind fun _ _ _ hs => ?_
    · refine hs.unregistered.setEntry fun a ha => ?_
      cases ha
      exact hne
    refine (leaves_touch (hs.touch ?_)).bind fun _ _ _ hs => leaves_publish (hs.publish _)
    refine hs.unregistered.setEntry fun a ha => ?_
    obtain ⟨e, he, rfl⟩ := Option.map_eq_some_iff.mp ha
    exact fun hval => hs.unregistered protocol (by rw [Store.adapterOf, he, ← hval]; rfl)
  | removeProtocol protocol =>
    refine Exec.Leaves.bind (leaves_asAdmin hs fun _ s hs => ?_)
      fun _ _ _ hs => Exec.leaves_pure hs _
    refine (Exec.leaves_gets hs _).bind fun _ _ _ hs => ?_
    refine (Exec.leaves_failIf hs _ _).bind fun _ _ _ hs => ?_
    refine (leaves_write (hs.write ?_ _)).bind fun _ _ _ hs => leaves_publish (hs.publish _)
    exact hs.unregistered.setEntry fun a ha => by cases ha
  | upgrade wasmHash =>
    refine Exec.Leaves.bind (leaves_asAdmin hs fun _ s hs => ?_)
      fun _ _ _ hs => Exec.leaves_pure hs _
    refine (leaves_publish (hs.publish _)).bind fun _ _ _ hs => leaves_updateWasm hs ?_
    exact hs.snoc hs.unregistered _ (fun _ h => by cases h) fun _ h => by cases h
  | version =>
    exact (Exec.leaves_pure hs _).bind fun _ _ _ hs => Exec.leaves_pure hs _
  | getAdmin => exact (leaves_readAdmin hs).bind fun _ _ _ hs => Exec.leaves_pure hs _
  | isPaused =>
    refine Exec.Leaves.bind ?_ fun _ _ _ hs => Exec.leaves_pure hs _
    exact (leaves_readAdmin hs).bind fun _ _ _ hs => Exec.leaves_gets hs _
  | getProtocol protocol =>
    refine Exec.Leaves.bind ?_ fun _ _ _ hs => Exec.leaves_pure hs _
    refine (leaves_readAdmin hs).bind fun _ _ _ hs => ?_
    exact (Exec.leaves_gets hs _).bind fun _ _ _ hs => Exec.leaves_okOr hs _ _
  | swap p => exact (leaves_swap hs hx).bind fun _ _ _ hs => Exec.leaves_pure hs _

end Contained

/-! ## 3. Another contract in its place -/

/-- The host, with the contract `f` at `x`. -/
def Host.reprogram (h : Host σ) (x : Address)
    (f : AdapterArgs → World σ → Except AdapterFault (Int × World σ)) : Host σ :=
  { h with adapterSwap := Function.update h.adapterSwap x f }

section Reprogram

variable {s : State σ} {f : AdapterArgs → World σ → Except AdapterFault (Int × World σ)}

theorem trySwap_reprogram {adapter : Address} (hne : adapter ≠ x) (args : AdapterArgs) :
    trySwap (h.reprogram x f) c adapter args = trySwap h c adapter args := by
  have hcall : callAdapter (h.reprogram x f) c adapter args = callAdapter h c adapter args := by
    funext w
    simp only [callAdapter, Host.reprogram, Function.update_of_ne hne]
  funext s
  simp only [trySwap, hcall]

theorem hop_reprogram (hs : Contained x s) {trader : Address} {last executionId i : Nat}
    {step : Option SwapStep} {q : Progress} :
    hop (h.reprogram x f) c trader last executionId i step q s
      = hop h c trader last executionId i step q s := by
  refine Exec.bind_congr (Exec.leaves_okOr hs _ _) fun step _ _ hs => ?_
  refine Exec.bind_congr (Exec.leaves_gets hs _) fun entry _ hentry hs => ?_
  obtain ⟨rfl, rfl⟩ := Exec.gets_eq_ok.mp hentry
  refine Exec.bind_congr (Exec.leaves_okOr hs _ _) fun adapter _ hadapter hs => ?_
  obtain ⟨hreg, rfl⟩ := Exec.okOr_eq_ok.mp hadapter
  have hne : adapter ≠ x := fun he => hs.unregistered _ (he ▸ hreg)
  refine Exec.bind_congr (leaves_send hs hne) fun _ s _ hs => ?_
  refine Exec.bind_congr (leaves_balance hs _ _ _) fun _ s _ hs => ?_
  rw [trySwap_reprogram hne]
  rfl

theorem hops_reprogram (hs : Contained x s) {trader : Address} {last executionId n i : Nat}
    {path : List SwapStep} {q : Progress} :
    forRange (fun i q => hop (h.reprogram x f) c trader last executionId i path[i]? q) i n q s
      = forRange (fun i q => hop h c trader last executionId i path[i]? q) i n q s :=
  Exec.forRange_congr (fun _ _ _ hs => leaves_hop hs) (fun _ _ _ hs => hop_reprogram hs) n i q s hs

/-- **A swap cannot tell what is at `x`.** -/
theorem swap_reprogram (hs : Contained x s) (hx : x ≠ c.self) {p : SwapParams} :
    swap (h.reprogram x f) c p s = swap h c p s := by
  refine Exec.bind_congr (leaves_checkSwap hs) fun _ s _ hs => ?_
  refine Exec.bind_congr (leaves_send hs hx.symm) fun _ s _ hs => ?_
  refine Exec.bind_congr (Exec.leaves_okOr hs _ _) fun _ s _ hs => ?_
  refine Exec.bind_congr (leaves_nextNonce hs) fun _ s _ hs => ?_
  rw [Exec.bind_apply, Exec.bind_apply, hops_reprogram hs]

theorem dispatch_reprogram (hs : Contained x s) (hx : x ≠ c.self) (i : Invocation) :
    dispatch (h.reprogram x f) c i s = dispatch h c i s := by
  cases i with
  | swap p =>
    have hswap := swap_reprogram (h := h) (f := f) hs hx (p := p)
    simp only [dispatch, returning, Exec.bind_apply, hswap]
  | _ => rfl

end Reprogram

/-! ## 4. Runs -/

/-- The step is a call that registered `x`. -/
def Registers (x : Address) : RouterLabel σ → Prop
  | .tx t => t.outcome.isOk = true ∧ ∃ p, t.call = .setProtocol p x
  | .elsewhere => False

/-- The same step, on another host. -/
def onHost (g : Host σ → Host σ) : RouterLabel σ → RouterLabel σ
  | .tx t => .tx { t with host := g t.host }
  | .elsewhere => .elsewhere

/-- Only a registration puts `x` into the registry. -/
theorem Performs.unregistered {i : Invocation} {v : Value} {s s' : State σ}
    (hp : Performs h c s i v s') (hs : Unregistered x s.store) (hi : ∀ p, i ≠ .setProtocol p x) :
    Unregistered x s'.store := by
  cases hp with
  | @setProtocol _ protocol adapter =>
    refine hs.setEntry fun a ha => ?_
    cases ha
    exact fun he => hi protocol (by rw [← he]; rfl)
  | removeProtocol => exact hs.setEntry fun a ha => by cases ha
  | _ => exact hs

section Steps

variable {b b' : Chain Store σ} {l : RouterLabel σ}

theorem step_unregistered (hb : Unregistered x b.store) (hstep : Step self b l b')
    (hl : ¬ Registers x l) : Unregistered x b'.store := by
  cases hstep with
  | returned _ _ _ hd =>
    exact (dispatch_performs hd).unregistered hb fun p hp => hl ⟨rfl, p, hp⟩
  | failed => exact hb
  | elsewhere => exact hb

theorem step_reprogram (hx : x ≠ self) (hb : Unregistered x b.store) (hstep : Step self b l b')
    (f : AdapterArgs → World σ → Except AdapterFault (Int × World σ)) :
    Step self b (onHost (fun h => h.reprogram x f) l) b' := by
  cases hstep with
  | returned hself hnow hseq hd =>
    refine .returned hself hnow hseq ?_
    rw [dispatch_reprogram (contained_start hb) (hself ▸ hx)]
    exact hd
  | failed hself hnow hseq hd ho =>
    refine .failed hself hnow hseq ?_ ho
    rw [dispatch_reprogram (contained_start hb) (hself ▸ hx)]
    exact hd
  | elsewhere hnow hseq => exact .elsewhere hnow hseq

end Steps

/-- **Removing an adapter contains it.**  As long as nobody registers `x` again, no call of any
entrypoint calls `x` or sends it tokens before it ends, however it ends; and the whole run could
have happened with any other contract at `x`. -/
theorem removed_adapter_contained {b b' : Chain Store σ} {ls : List (RouterLabel σ)}
    (hx : x ≠ self) (h0 : Unregistered x b.store)
    (hrun : Runs (fun b l b' => Step self b l b' ∧ ¬ Registers x l) b ls b') :
    Unregistered x b'.store ∧
      (∀ (h : Host σ) (c : Ctx) (i : Invocation), c.self = self →
        (∀ p, i ≠ .setProtocol p x) →
        (∀ y ∈ callsOf (dispatch h c i b'.start).2.log, y.adapter ≠ x) ∧
          ∀ m ∈ transfersOf (dispatch h c i b'.start).2.log, m.2.2.1 ≠ x) ∧
      ∀ f, Runs (Step self) b (ls.map (onHost fun h => h.reprogram x f)) b' := by
  have hkeep : ∀ (b : Chain Store σ) (l : RouterLabel σ) (b' : Chain Store σ),
      Unregistered x b.store → (Step self b l b' ∧ ¬ Registers x l) → Unregistered x b'.store :=
    fun b l b' hb hl => step_unregistered hb hl.1 hl.2
  have hend : Unregistered x b'.store :=
    hrun.invariant (I := fun b : Chain Store σ => Unregistered x b.store) hkeep h0
  refine ⟨hend, fun h c i hself hi => ?_, fun f => ?_⟩
  · have hleaves : Contained x (dispatch h c i b'.start).2 :=
      dispatch_contained (contained_start hend) (hself ▸ hx) hi
    exact ⟨hleaves.calls, hleaves.transfers⟩
  · -- the steps out of states without `x`, and then each of them on the other host
    have hwith : Runs (fun b l b' => Step self b l b' ∧ Unregistered x b.store) b ls b' :=
      hrun.mono_of hkeep (fun b l b' hb hl => ⟨hl.1, hb⟩) h0
    exact hwith.project id _ fun b l b' hl => step_reprogram hx hl.2 hl.1 f

namespace Removal

open TestAdapter.Fixture

/-- Initialize, register the adapter, and remove it. -/
def calls : List (Host TestAdapter.Deployments × Ctx × Invocation) :=
  [(chain, ctx, .initializeRouter admin), (chain, ctx, .setProtocol ⟨"test"⟩ adapterId),
    (chain, ctx, .removeProtocol ⟨"test"⟩)]

def removed : Chain Store TestAdapter.Deployments := (Launch.deployed.execAll dispatch calls).2

theorem runs : Runs (Step routerId) Launch.deployed (Launch.deployed.execAll dispatch calls).1
    removed :=
  Chain.execAll_runs calls Launch.deployed (by simp [calls, Launch.deployed, ctx])

theorem unregistered : Unregistered adapterId removed.store := by
  intro p
  have hlog : journal (Launch.deployed.execAll dispatch calls).1
      = [.initialized admin 1, .protocolSet ⟨"test"⟩ adapterId 1,
          .protocolRemoved ⟨"test"⟩ 1] := by decide +kernel
  have hconfig := foldl_of_runs (runs_journal runs)
  rw [hlog] at hconfig
  have hadapters : removed.store.adapterOf p = removed.store.config.adapters p := rfl
  rw [hadapters, ← hconfig]
  by_cases hp : p = ⟨"test"⟩
  · simp [Config.apply, hp]
  · simp [Config.apply, hp, Store.config, Launch.deployed, Store.deployed, Store.adapterOf]

/-- Somebody tries the adapter's protocol. -/
def tried : RouterLabel TestAdapter.Deployments × Chain Store TestAdapter.Deployments :=
  removed.exec dispatch chain ctx (.swap twoHops)

theorem tried_step : Step routerId removed tried.1 tried.2 :=
  Chain.exec_step rfl (by decide +kernel) (by decide +kernel)

theorem not_registers : ¬ Registers adapterId tried.1 := by
  obtain ⟨t, ht, -, -, hcall, -⟩ : ∃ t, tried.1 = .tx t ∧ _ := Chain.exec_tx
  rw [ht]
  rintro ⟨-, p, hp⟩
  rw [hcall] at hp
  cases hp

end Removal

theorem removed_adapter_contained_tried :
    Unregistered TestAdapter.Fixture.adapterId Removal.tried.2.store ∧
      ∀ y ∈ callsOf (dispatch TestAdapter.Fixture.chain TestAdapter.Fixture.ctx
        (.swap TestAdapter.Fixture.twoHops) Removal.tried.2.start).2.log,
        y.adapter ≠ TestAdapter.Fixture.adapterId := by
  obtain ⟨hend, hattempts, -⟩ := removed_adapter_contained (by decide) Removal.unregistered
    (Runs.single ⟨Removal.tried_step, Removal.not_registers⟩)
  exact ⟨hend, (hattempts _ _ _ rfl (by simp)).1⟩

end Stellariq.Router
