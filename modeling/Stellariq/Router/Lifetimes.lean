/-
# How long the router's storage lives

The instance entry holds the admin, the pause flag and the nonce; every protocol has an entry of
its own.  `initialize`, `set_admin`, `set_paused` and `swap` renew the instance entry.  The two
entrypoints of the registry do not: `set_protocol` renews the entry it writes and nothing else, and
`remove_protocol` renews nothing, so after them the instance entry lasts exactly when it did before
(`renewed_iff`).
-/
import Stellariq.Router.Transactions

namespace Stellariq.Router

open Kit

variable {σ : Type} {h : Host σ} {c : Ctx} {self : Address}

/-! ## 1. Lifetimes -/

/-- The last ledger of the entry that holds the key. -/
def Store.liveUntil (st : Store) : DataKey → Option Nat
  | .admin | .paused | .nonce => some st.instanceUntil
  | .protocol p => (st.protocol p).map Entry.liveUntil

/-- The keys that a successful call should have renewed: those of the instance entry, and the
protocol it registered. -/
def Invocation.renews : Invocation → List DataKey
  | .initializeRouter _ | .setAdmin _ | .setPaused _ | .removeProtocol _ | .swap _ =>
    [.admin, .paused, .nonce]
  | .setProtocol protocol _ => [.admin, .paused, .nonce, .protocol protocol]
  | _ => []

/-- The entrypoints that change the registry. -/
def Invocation.isRegistry : Invocation → Bool
  | .setProtocol _ _ | .removeProtocol _ => true
  | _ => false

def Renewed (_ : Chain Store σ) (l : RouterLabel σ) (b' : Chain Store σ) : Prop :=
  ∀ t, l = .tx t → t.outcome.isOk = true →
    ∀ key ∈ t.call.renews, Lasts b'.store.liveUntil TTL_THRESHOLD b'.seq key

/-- At a successful change of the registry, the instance entry has the threshold left already. -/
def Timely (b : Chain Store σ) (l : RouterLabel σ) (b' : Chain Store σ) : Prop :=
  ∀ t, l = .tx t → t.outcome.isOk = true → t.call.isRegistry = true →
    TTL_THRESHOLD ≤ b.store.instanceUntil - b'.seq

/-- A step in whose ledger no entry has expired. -/
def LiveStep (self : Address) (b : Chain Store σ) (l : RouterLabel σ) (b' : Chain Store σ) :
    Prop :=
  Step self b l b' ∧ Alive b.store.liveUntil b'.seq

/-! ## 2. Calls and steps -/

/-- The keys of the instance entry last as long as it does. -/
theorem lasts_instance_iff (st : Store) (seq : Nat) :
    (∀ key ∈ [DataKey.admin, .paused, .nonce], Lasts st.liveUntil TTL_THRESHOLD seq key) ↔
      TTL_THRESHOLD ≤ st.instanceUntil - seq := by
  constructor
  · intro hall
    obtain ⟨u, hu, hle⟩ := hall .admin (by simp)
    cases hu
    exact hle
  · intro hle key hkey
    simp only [List.mem_cons, List.not_mem_nil, or_false] at hkey
    rcases hkey with rfl | rfl | rfl
    · exact ⟨_, rfl, hle⟩
    · exact ⟨_, rfl, hle⟩
    · exact ⟨_, rfl, hle⟩

/-- A protocol that was registered lasts. -/
theorem lasts_registered (st : Store) (protocol : Symbol) (adapter : Address) :
    Lasts (st.setEntry protocol (some (st.registered c protocol adapter))).liveUntil TTL_THRESHOLD
      c.sequence (.protocol protocol) := by
  refine ⟨(st.registered c protocol adapter).liveUntil, ?_, ?_⟩
  · simp [Store.liveUntil, Store.setEntry]
  · exact threshold_le_extendTtl (by decide) _

/-- **What a call has renewed.** -/
theorem Performs.lasts_iff {i : Invocation} {v : Value} {s s' : State σ}
    (hp : Performs h c s i v s') :
    (∀ key ∈ i.renews, Lasts s'.store.liveUntil TTL_THRESHOLD c.sequence key) ↔
      (i.isRegistry = true → TTL_THRESHOLD ≤ s.store.instanceUntil - c.sequence) := by
  -- the entrypoints that renew the instance entry
  have hrenewed : ∀ u, TTL_THRESHOLD ≤
      extendTtl c.sequence TTL_THRESHOLD TTL_EXTEND u - c.sequence :=
    threshold_le_extendTtl (by decide)
  cases hp with
  | initializeRouter =>
    exact iff_of_true ((lasts_instance_iff _ _).mpr (hrenewed _)) (fun hreg => nomatch hreg)
  | setAdmin =>
    exact iff_of_true ((lasts_instance_iff _ _).mpr (hrenewed _)) (fun hreg => nomatch hreg)
  | setPaused =>
    exact iff_of_true ((lasts_instance_iff _ _).mpr (hrenewed _)) (fun hreg => nomatch hreg)
  | swap =>
    exact iff_of_true ((lasts_instance_iff _ _).mpr (hrenewed _)) (fun hreg => nomatch hreg)
  | @setProtocol admin protocol adapter =>
    have hentry := lasts_registered (c := c) s.store protocol adapter
    have hinstance := lasts_instance_iff
      (s.store.setEntry protocol (some (s.store.registered c protocol adapter))) c.sequence
    have hkeys : ∀ key, key ∈ (Invocation.setProtocol protocol adapter).renews ↔
        key ∈ [DataKey.admin, .paused, .nonce] ∨ key = .protocol protocol := by
      simp [Invocation.renews, or_assoc]
    simp only [hkeys]
    constructor
    · intro hall _
      exact hinstance.mp fun key hkey => hall key (Or.inl hkey)
    · rintro hle key (hkey | rfl)
      · exact hinstance.mpr (hle rfl) key hkey
      · exact hentry
  | removeProtocol =>
    exact (lasts_instance_iff _ _).trans ⟨fun hle _ => hle, fun hle => hle rfl⟩
  | upgrade => exact iff_of_true (fun key hkey => nomatch hkey) (fun hreg => nomatch hreg)
  | view hi =>
    refine iff_of_true (fun key hkey => ?_) (fun hreg => ?_)
    · cases i with
      | version | getAdmin | isPaused | getProtocol => exact nomatch hkey
      | _ => cases hi
    · cases i with
      | version | getAdmin | isPaused | getProtocol => exact nomatch hreg
      | _ => cases hi

/-- **A step renews what it should exactly when it is timely.** -/
theorem renewed_iff {b b' : Chain Store σ} {l : RouterLabel σ} (hstep : Step self b l b') :
    Renewed b l b' ↔ Timely b l b' := by
  cases hstep with
  | returned _ _ _ hd =>
    have hiff := (dispatch_performs hd).lasts_iff
    constructor
    · intro hr t ht hok hreg
      cases ht
      exact hiff.mp (hr _ rfl hok) hreg
    · intro ht t hl hok
      cases hl
      exact hiff.mpr (ht _ rfl hok)
  | @failed h c i o _ _ _ _ ho =>
    have hfailed : ∀ {p : Prop}, o.isOk = true → p := fun hok => by
      rw [ho] at hok
      cases hok
    refine iff_of_true (fun t hl hok => ?_) (fun t hl hok => ?_)
    · cases hl
      exact hfailed hok
    · cases hl
      exact hfailed hok
  | elsewhere => exact iff_of_true (fun t hl => nomatch hl) (fun t hl => nomatch hl)

/-! ## 3. Runs -/

/-- **When the router's storage is renewed.**  Over any run in which nothing expires, every
successful call leaves what it should renew with the threshold left exactly when the instance entry
has it left already at every change of the registry. -/
theorem registry_lifetimes_iff {b b' : Chain Store σ} {ls : List (RouterLabel σ)} :
    Runs (fun b l b' => LiveStep self b l b' ∧ Renewed b l b') b ls b' ↔
      Runs (fun b l b' => LiveStep self b l b' ∧ Timely b l b') b ls b' :=
  Runs.conditions_iff (I := fun _ => True) (fun _ _ _ _ _ => trivial)
    (fun _ _ _ _ hstep => renewed_iff hstep.1) trivial

namespace Lapse

open TestAdapter.Fixture

/-- The router of the launch is initialized in the first ledger. -/
def initialized : RouterLabel TestAdapter.Deployments × Chain Store TestAdapter.Deployments :=
  Launch.deployed.exec dispatch chain ctx (.initializeRouter admin)

/-- The adapter is registered fifty ledgers before the instance entry expires. -/
def registered : RouterLabel TestAdapter.Deployments × Chain Store TestAdapter.Deployments :=
  initialized.2.exec dispatch chain { ctx with sequence := 9950, freshUntil := 14045 }
    (.setProtocol ⟨"test"⟩ adapterId)

theorem alive_deployed : Alive Launch.deployed.store.liveUntil 1 := by
  intro key u hu
  cases key with
  | admin | paused | nonce =>
    cases hu
    decide
  | protocol => cases hu

theorem alive_initialized : Alive initialized.2.store.liveUntil 9950 := by
  have hok : dispatch chain ctx (.initializeRouter admin) Launch.deployed.start = (.ok .unit, _) :=
    Exec.eq_ok_of_fst (by decide +kernel)
  have huntil : 9950 ≤ initialized.2.store.instanceUntil := by decide +kernel
  have hprotocols : initialized.2.store.protocol = fun _ => none := by
    rw [initialized, Chain.exec_of_ok hok]
    rfl
  intro key u hu
  cases key with
  | admin | paused | nonce =>
    cases hu
    exact huntil
  | protocol p => simp [Store.liveUntil, hprotocols] at hu

theorem initialized_step :
    LiveStep routerId Launch.deployed initialized.1 initialized.2 := by
  refine ⟨Chain.exec_step rfl (by decide) (by decide), ?_⟩
  have hseq : initialized.2.seq = 1 := by decide +kernel
  exact hseq ▸ alive_deployed

theorem registered_step : LiveStep routerId initialized.2 registered.1 registered.2 := by
  refine ⟨Chain.exec_step rfl (by decide +kernel) (by decide +kernel), ?_⟩
  have hseq : registered.2.seq = 9950 := by decide +kernel
  exact hseq ▸ alive_initialized

end Lapse

/-- Nothing has expired, and after the registration the instance entry has fewer than the threshold
left. -/
theorem registration_lets_instance_lapse :
    Launch.deployed.store = Store.deployed 10000 ∧
      Runs (LiveStep TestAdapter.Fixture.routerId) Launch.deployed
        [Lapse.initialized.1, Lapse.registered.1] Lapse.registered.2 ∧
      (∃ t, Lapse.registered.1 = .tx t ∧ t.outcome.isOk = true ∧ DataKey.admin ∈ t.call.renews) ∧
      ¬ Lasts Lapse.registered.2.store.liveUntil TTL_THRESHOLD Lapse.registered.2.seq .admin := by
  refine ⟨rfl, .tail (Runs.single Lapse.initialized_step) Lapse.registered_step, ?_, ?_⟩
  · have hok := Exec.eq_ok_of_fst (x := dispatch TestAdapter.Fixture.chain
      { TestAdapter.Fixture.ctx with sequence := 9950, freshUntil := 14045 }
      (.setProtocol ⟨"test"⟩ TestAdapter.Fixture.adapterId))
      (s := Lapse.initialized.2.start) (a := .unit) (by decide +kernel)
    exact ⟨_, congrArg Prod.fst (Chain.exec_of_ok hok), rfl, by simp [Invocation.renews]⟩
  · rintro ⟨u, hu, hle⟩
    cases hu
    exact absurd hle (by decide +kernel)

end Stellariq.Router
