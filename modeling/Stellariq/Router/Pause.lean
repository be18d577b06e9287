/-
# The pause is a circuit breaker, and nothing else

The admin can pause the router, and the docs promise that this stops swaps, not the
administration.  `pause_stops_swaps_only` says both.  While nobody lifts the pause, every swap is
turned down before anything else about it is looked at, no token moves on the router's behalf, no
execution id is used up and no settlement is recorded.  And every other entrypoint but the one that
reports the flag ends exactly as it would without the pause, having done the same things.

The first half is an invariant of runs.  The second half is about two calls side by side, from
storages that differ in the flag (`Store.ButPaused`).
-/
import Stellariq.Router.Statement
import Stellariq.Kit.Relational

namespace Stellariq.Router

open Kit

variable {σ : Type} {h : Host σ} {c : Ctx} {self : Address}

/-! ## 1. Storages that differ in the flag -/

structure Store.ButPaused (st st' : Store) : Prop where
  admin : st'.admin = st.admin
  nonce : st'.nonce = st.nonce
  instanceUntil : st'.instanceUntil = st.instanceUntil
  protocol : st'.protocol = st.protocol

/-- The two running calls have done the same things in the same world, from storages that differ in
the flag. -/
structure ButPaused (s t : State σ) : Prop where
  store : s.store.ButPaused t.store
  world : t.world = s.world
  log : t.log = s.log

section Relates

variable {s t : State σ}

theorem butPaused_readAdmin (hR : ButPaused s t) :
    Exec.Relates ButPaused Eq (readAdmin : Call σ Address) readAdmin s t := by
  refine (Exec.relates_gets (V := Eq) hR hR.store.admin.symm).bind fun _ _ _ _ _ _ hv hR => ?_
  obtain rfl := hv
  exact Exec.relates_okOr hR _ _

theorem butPaused_requireAuth (hR : ButPaused s t) (a : Address) :
    Exec.Relates ButPaused Eq (requireAuth c a : Call σ Unit) (requireAuth c a) s t := by
  unfold requireAuth
  split
  · exact Exec.relates_pure hR rfl
  · exact Exec.relates_trap hR Eq

theorem butPaused_write (hR : ButPaused s t) (k : DataKey) {f : Store → Store}
    (hf : (f s.store).ButPaused (f t.store)) :
    Exec.Relates ButPaused Eq (write k f : Call σ Unit) (write k f) s t :=
  Exec.relates_modify ⟨hf, hR.world, congrArg (· ++ [.write k]) hR.log⟩

theorem butPaused_touch (hR : ButPaused s t) {f : Store → Store}
    (hf : (f s.store).ButPaused (f t.store)) :
    Exec.Relates ButPaused Eq (touch f : Call σ Unit) (touch f) s t :=
  Exec.relates_modify ⟨hf, hR.world, hR.log⟩

theorem butPaused_extendInstance (hR : ButPaused s t) :
    Exec.Relates ButPaused Eq (extendInstance c : Call σ Unit) (extendInstance c) s t := by
  obtain ⟨hadmin, hnonce, huntil, hprotocol⟩ := hR.store
  exact butPaused_touch hR ⟨hadmin, hnonce, by simp only [huntil], hprotocol⟩

theorem butPaused_publish (hR : ButPaused s t) (e : RouterEvent) :
    Exec.Relates ButPaused Eq (publish e : Call σ Unit) (publish e) s t :=
  Exec.relates_modify ⟨hR.store, hR.world, congrArg (· ++ [.event e]) hR.log⟩

theorem butPaused_updateWasm (hR : ButPaused s t) (hash : WasmHash) :
    Exec.Relates ButPaused Eq (updateWasm c hash : Call σ Unit) (updateWasm c hash) s t := by
  unfold Exec.Relates updateWasm
  split
  · exact ⟨.ok rfl, hR.store, hR.world, congrArg (· ++ [.updateWasm hash]) hR.log⟩
  · exact ⟨.trap, hR⟩

theorem butPaused_asAdmin {f : Address → Call σ Unit} (hR : ButPaused s t)
    (hf : ∀ a s t, ButPaused s t → Exec.Relates ButPaused Eq (f a) (f a) s t) :
    Exec.Relates ButPaused Eq (readAdmin >>= fun a => requireAuth c a >>= fun _ => f a)
      (readAdmin >>= fun a => requireAuth c a >>= fun _ => f a) s t := by
  refine (butPaused_readAdmin hR).bind fun a _ _ _ _ _ hv hR => ?_
  obtain rfl := hv
  exact (butPaused_requireAuth hR a).bind fun _ _ _ _ _ _ _ hR => hf a _ _ hR

theorem butPaused_returning {α : Type} {f : α → Value} {x : Call σ α}
    (hx : Exec.Relates ButPaused Eq x x s t) :
    Exec.Relates ButPaused Eq (returning f x) (returning f x) s t := by
  refine hx.bind fun a _ _ _ _ _ hv hR => ?_
  obtain rfl := hv
  exact Exec.relates_pure hR rfl

/-- Replacing an entry of the registry by one that is made from it. -/
theorem Store.ButPaused.setEntry {st st' : Store} (hst : st.ButPaused st') (p : Symbol)
    (f : Option (Entry Address) → Option (Entry Address)) :
    (st.setEntry p (f (st.protocol p))).ButPaused (st'.setEntry p (f (st'.protocol p))) := by
  refine ⟨hst.admin, hst.nonce, hst.instanceUntil, ?_⟩
  simp only [Store.setEntry, hst.protocol]

/-- **The flag is read by `swap` and `is_paused` only.** -/
theorem butPaused_dispatch (hR : ButPaused s t) {i : Invocation} (hswap : ∀ p, i ≠ .swap p)
    (hpaused : i ≠ .isPaused) :
    Exec.Relates ButPaused Eq (dispatch h c i) (dispatch h c i) s t := by
  cases i with
  | initializeRouter admin =>
    refine butPaused_returning ?_
    refine (Exec.relates_gets (V := Eq) hR hR.store.admin.symm).bind fun _ _ _ _ _ _ hv hR => ?_
    obtain rfl := hv
    refine (Exec.relates_failIf hR Iff.rfl _).bind fun _ _ _ _ _ _ _ hR => ?_
    obtain ⟨-, hnonce, huntil, hprotocol⟩ := hR.store
    refine (butPaused_write hR _ ?_).bind fun _ _ _ _ _ _ _ hR => ?_
    · exact ⟨rfl, hnonce, huntil, hprotocol⟩
    obtain ⟨hadmin, hnonce, huntil, hprotocol⟩ := hR.store
    refine (butPaused_write hR _ ?_).bind fun _ _ _ _ _ _ _ hR => ?_
    · exact ⟨hadmin, hnonce, huntil, hprotocol⟩
    obtain ⟨hadmin, -, huntil, hprotocol⟩ := hR.store
    refine (butPaused_write hR _ ?_).bind fun _ _ _ _ _ _ _ hR => ?_
    · exact ⟨hadmin, rfl, huntil, hprotocol⟩
    exact (butPaused_extendInstance hR).bind fun _ _ _ _ _ _ _ hR => butPaused_publish hR _
  | setAdmin newAdmin =>
    refine butPaused_returning (butPaused_asAdmin hR fun _ s t hR => ?_)
    refine (Exec.relates_failIf hR Iff.rfl _).bind fun _ _ _ _ _ _ _ hR => ?_
    obtain ⟨-, hnonce, huntil, hprotocol⟩ := hR.store
    refine (butPaused_write hR _ ?_).bind fun _ _ _ _ _ _ _ hR => ?_
    · exact ⟨rfl, hnonce, huntil, hprotocol⟩
    exact (butPaused_extendInstance hR).bind fun _ _ _ _ _ _ _ hR => butPaused_publish hR _
  | setPaused paused =>
    refine butPaused_returning (butPaused_asAdmin hR fun _ s t hR => ?_)
    obtain ⟨hadmin, hnonce, huntil, hprotocol⟩ := hR.store
    refine (butPaused_write hR _ ?_).bind fun _ _ _ _ _ _ _ hR => ?_
    · exact ⟨hadmin, hnonce, huntil, hprotocol⟩
    exact (butPaused_extendInstance hR).bind fun _ _ _ _ _ _ _ hR => butPaused_publish hR _
  | setProtocol protocol adapter =>
    refine butPaused_returning (butPaused_asAdmin hR fun _ s t hR => ?_)
    refine (butPaused_write hR _ ?_).bind fun _ _ _ _ _ _ _ hR => ?_
    · exact hR.store.setEntry protocol fun e => some (Entry.put e c.freshUntil adapter)
    refine (butPaused_touch hR ?_).bind fun _ _ _ _ _ _ _ hR => butPaused_publish hR _
    exact hR.store.setEntry protocol (Option.map (Entry.extend c.sequence TTL_THRESHOLD TTL_EXTEND))
  | removeProtocol protocol =>
    refine butPaused_returning (butPaused_asAdmin hR fun _ s t hR => ?_)
    have hentry : s.store.protocol protocol = t.store.protocol protocol := by
      rw [hR.store.protocol]
    refine (Exec.relates_gets (V := Eq) hR hentry).bind fun _ _ _ _ _ _ hv hR => ?_
    obtain rfl := hv
    refine (Exec.relates_failIf hR Iff.rfl _).bind fun _ _ _ _ _ _ _ hR => ?_
    refine (butPaused_write hR _ ?_).bind fun _ _ _ _ _ _ _ hR => butPaused_publish hR _
    exact hR.store.setEntry protocol fun _ => none
  | upgrade wasmHash =>
    refine butPaused_returning (butPaused_asAdmin hR fun _ s t hR => ?_)
    exact (butPaused_publish hR _).bind fun _ _ _ _ _ _ _ hR => butPaused_updateWasm hR _
  | version => exact butPaused_returning (Exec.relates_pure hR rfl)
  | getAdmin => exact butPaused_returning (butPaused_readAdmin hR)
  | isPaused => exact absurd rfl hpaused
  | getProtocol protocol =>
    refine butPaused_returning ((butPaused_readAdmin hR).bind fun _ s _ t _ _ _ hR => ?_)
    have hentry : s.store.adapterOf protocol = t.store.adapterOf protocol := by
      rw [Store.adapterOf, Store.adapterOf, hR.store.protocol]
    refine (Exec.relates_gets (V := Eq) hR hentry).bind fun _ _ _ _ _ _ hv hR => ?_
    obtain rfl := hv
    exact Exec.relates_okOr hR _ _
  | swap p => exact absurd rfl (hswap p)

end Relates

/-! ## 2. Paused runs -/

/-- Initialized, and paused. -/
structure Paused (st : Store) : Prop where
  initialized : st.admin.isSome = true
  paused : st.paused = some true

/-- The step is a call that lifted the pause. -/
def Unpauses : RouterLabel σ → Prop
  | .tx t => t.outcome.isOk = true ∧ t.call = .setPaused false
  | .elsewhere => False

/-- A paused router looks at nothing of a swap. -/
theorem swap_paused {s : State σ} (hs : Paused s.store) (p : SwapParams) :
    swap h c p s = (.err .paused, s) := by
  obtain ⟨a, ha⟩ := Option.isSome_iff_exists.mp hs.initialized
  have hadmin : readAdmin s = (.ok a, s) := readAdmin_eq_ok.mpr ⟨ha, rfl⟩
  have hflag : (Exec.gets fun s : State σ => s.store.paused.getD false : Call σ Bool) s
      = (.ok true, s) := Exec.gets_eq_ok.mpr ⟨by rw [hs.paused]; rfl, rfl⟩
  have hcheck : checkSwap h c p s = (.err .paused, s) := by
    rw [checkSwap, Exec.bind_of_ok hadmin, Exec.bind_of_ok hflag]
    exact Exec.bind_of_err (Exec.failIf_of rfl _ _)
  exact Exec.bind_of_err hcheck

/-- What is left to happen while the router is paused. -/
structure Idle (b : Chain Store σ) (l : RouterLabel σ) (b' : Chain Store σ) : Prop where
  paused : Paused b'.store
  nonce : b'.store.nonce = b.store.nonce
  world : l ≠ .elsewhere → b'.world = b.world
  events : ∀ e ∈ l.events, e.executionId? = none
  ops : ∀ t, l = .tx t → callsOf t.ops = [] ∧ transfersOf t.ops = []

/-- The entrypoints of a paused router. -/
theorem Performs.paused {i : Invocation} {v : Value} {s s' : State σ} (hp : Performs h c s i v s')
    (hs : Paused s.store) (hi : i ≠ .setPaused false) :
    Paused s'.store ∧ s'.store.nonce = s.store.nonce ∧ ∀ p, i ≠ .swap p := by
  cases hp with
  | initializeRouter hnone =>
    have hinit := hs.initialized
    rw [hnone] at hinit
    cases hinit
  | setAdmin => exact ⟨⟨rfl, hs.paused⟩, rfl, by simp⟩
  | @setPaused admin paused hadmin =>
    cases paused with
    | false => exact absurd rfl hi
    | true => exact ⟨⟨hs.initialized, rfl⟩, rfl, by simp⟩
  | setProtocol => exact ⟨⟨hs.initialized, hs.paused⟩, rfl, by simp⟩
  | removeProtocol => exact ⟨⟨hs.initialized, hs.paused⟩, rfl, by simp⟩
  | upgrade => exact ⟨hs, rfl, by simp⟩
  | view hview => exact ⟨hs, rfl, fun p hp => by rw [hp] at hview; cases hview⟩
  | swap had =>
    have hlive := had.unpaused
    rw [hs.paused] at hlive
    cases hlive

theorem step_idle {b b' : Chain Store σ} {l : RouterLabel σ} (hb : Paused b.store)
    (hstep : Step self b l b') (hl : ¬ Unpauses l) : Idle b l b' := by
  cases hstep with
  | @returned h c i v s _ _ _ hd =>
    have hp := dispatch_performs hd
    obtain ⟨hpaused, hnonce, hi⟩ := hp.paused hb fun he => hl ⟨rfl, he⟩
    obtain ⟨hworld, ops, hlog, hcalls, htransfers, hev⟩ := hp.quiet hi
    obtain rfl : _ = ops := hlog
    refine ⟨hpaused, hnonce, fun _ => hworld, hev, fun t ht => ?_⟩
    cases ht
    exact ⟨hcalls, htransfers⟩
  | failed =>
    refine ⟨hb, rfl, fun _ => rfl, by simp [Label.events, eventsOf], fun t ht => ?_⟩
    cases ht
    exact ⟨rfl, rfl⟩
  | elsewhere =>
    exact ⟨hb, rfl, fun h => absurd rfl h, by simp [Label.events], fun _ h => by cases h⟩

/-- **The pause stops swaps only.**  Until somebody lifts it, no call of the router calls an adapter
or moves a token, no execution id is used up, no settlement is recorded, and every swap is turned
down untouched.  Every other entrypoint, but for the one that reports the flag, ends as it would
without the pause, and has done the same. -/
theorem pause_stops_swaps_only {b b' : Chain Store σ} {ls : List (RouterLabel σ)}
    (h0 : Paused b.store)
    (hrun : Runs (fun b l b' => Step self b l b' ∧ ¬ Unpauses l) b ls b') :
    (Paused b'.store ∧ b'.store.nonce = b.store.nonce ∧
      (∀ e ∈ journal ls, e.executionId? = none) ∧
      (∀ t, .tx t ∈ ls → callsOf t.ops = [] ∧ transfersOf t.ops = []) ∧
      Runs (fun b l b' => Step self b l b' ∧ (l ≠ .elsewhere → b'.world = b.world)) b ls b') ∧
    (∀ (h : Host σ) (c : Ctx) (p : SwapParams),
      swap h c p b'.start = (.err .paused, b'.start)) ∧
    ∀ (h : Host σ) (c : Ctx) (i : Invocation) (q : Option Bool), (∀ p, i ≠ .swap p) →
      i ≠ .isPaused →
      (dispatch h c i { (b'.start : State σ) with store := { b'.store with paused := q } }).1
          = (dispatch h c i b'.start).1 ∧
        ButPaused (dispatch h c i b'.start).2
          (dispatch h c i { (b'.start : State σ) with
            store := { b'.store with paused := q } }).2 := by
  have hkeep : ∀ (b : Chain Store σ) (l : RouterLabel σ) (b' : Chain Store σ), Paused b.store →
      (Step self b l b' ∧ ¬ Unpauses l) → Paused b'.store :=
    fun b l b' hb hl => (step_idle hb hl.1 hl.2).paused
  have hend : Paused b'.store :=
    hrun.invariant (I := fun b : Chain Store σ => Paused b.store) hkeep h0
  have hidle : Runs (fun b l b' => Step self b l b' ∧ Idle b l b') b ls b' :=
    hrun.mono_of hkeep (fun b l b' hb hl => ⟨hl.1, step_idle hb hl.1 hl.2⟩) h0
  refine ⟨⟨hend, ?_, ?_, ?_, hidle.mono fun b l b' hl => ⟨hl.1, hl.2.world⟩⟩,
    fun h c p => swap_paused hend p, fun h c i q hswap hpaused => ?_⟩
  · exact hidle.invariant (I := fun d : Chain Store σ => d.store.nonce = b.store.nonce)
      (fun d l d' hd hl => hl.2.nonce.trans hd) rfl
  · exact hidle.invariant_labels (I := fun ls _ => ∀ e ∈ journal ls, e.executionId? = none)
      (fun ls d l d' hls hl => by
        rw [journal_snoc, List.forall_mem_append]
        exact ⟨hls, hl.2.events⟩) (by simp [journal])
  · exact hidle.invariant_labels
      (I := fun ls _ => ∀ t, Label.tx t ∈ ls → callsOf t.ops = [] ∧ transfersOf t.ops = [])
      (fun ls d l d' hls hl t ht => by
        rcases List.mem_append.mp ht with ht | ht
        · exact hls t ht
        · exact hl.2.ops t (List.mem_singleton.mp ht).symm) (by simp)
  · have hR : ButPaused (b'.start : State σ)
        { (b'.start : State σ) with store := { b'.store with paused := q } } :=
      ⟨⟨rfl, rfl, rfl, rfl⟩, rfl, rfl⟩
    obtain ⟨hend, hstate⟩ := butPaused_dispatch (h := h) (c := c) hR hswap hpaused
    exact ⟨hend.eq.symm, hstate⟩

namespace Halt

open TestAdapter.Fixture

def halted : Chain Store TestAdapter.Deployments :=
  (Launch.launched.exec dispatch chain ctx (.setPaused true)).2

theorem paused : Paused halted.store := ⟨by decide +kernel, by decide +kernel⟩

/-- The adapter is removed in the meantime. -/
def cleared : RouterLabel TestAdapter.Deployments × Chain Store TestAdapter.Deployments :=
  halted.exec dispatch chain ctx (.removeProtocol ⟨"test"⟩)

theorem cleared_step : Step routerId halted cleared.1 cleared.2 ∧ ¬ Unpauses cleared.1 := by
  refine ⟨Chain.exec_step rfl (by decide +kernel) (by decide +kernel), ?_⟩
  obtain ⟨t, ht, -, -, hcall, -⟩ : ∃ t, cleared.1 = .tx t ∧ _ := Chain.exec_tx
  rw [ht]
  rintro ⟨-, hp⟩
  rw [hcall] at hp
  cases hp

end Halt

theorem pause_stops_swaps_only_halted :
    Halt.cleared.2.store.nonce = some 1 ∧
      (swap TestAdapter.Fixture.chain TestAdapter.Fixture.ctx TestAdapter.Fixture.twoHops
        Halt.cleared.2.start).1 = .err .paused := by
  obtain ⟨⟨-, hnonce, -⟩, hswap, -⟩ :=
    pause_stops_swaps_only Halt.paused (Runs.single Halt.cleared_step)
  exact ⟨hnonce.trans (by decide +kernel), by rw [hswap]⟩

end Stellariq.Router
