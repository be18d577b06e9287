/-
# The audit trail

Whoever replays the lifecycle events of the router in order knows its configuration: the admin,
the pause flag and the registry (`replay`).  Every entrypoint that writes one of them publishes an
event that does the same to the replayed configuration, and only an event that the configuration
before it allows (`Config.Admits`), so a run of the router is a run of `Journals`, labelled by
the event log.  The settlement events of a swap, and `Upgraded`, change nothing in it.
-/
import Stellariq.Router.Transactions

namespace Stellariq.Router

open Kit

variable {σ : Type} {h : Host σ} {c : Ctx} {self : Address}

/-! ## 1. Replaying -/

/-- What an auditor keeps of the router. -/
@[ext] structure Config where
  admin : Option Address
  paused : Bool
  adapters : Symbol → Option Address

namespace Config

def empty : Config := { admin := none, paused := false, adapters := fun _ => none }

def apply (g : Config) : RouterEvent → Config
  | .initialized admin _ => { g with admin := some admin, paused := false }
  | .adminChanged _ newAdmin _ => { g with admin := some newAdmin }
  | .pauseChanged _ paused _ => { g with paused }
  | .protocolSet protocol adapter _ =>
    { g with adapters := Function.update g.adapters protocol (some adapter) }
  | .protocolRemoved protocol _ =>
    { g with adapters := Function.update g.adapters protocol none }
  | .swapExecuted _ | .hopExecuted _ | .upgraded _ _ _ => g

/-- The admin and the protocols that the event names are those of `g`. -/
def Names (g : Config) : RouterEvent → Prop
  | .adminChanged oldAdmin _ _ => g.admin = some oldAdmin
  | .pauseChanged admin _ _ => g.admin = some admin
  | .upgraded admin _ _ => g.admin = some admin
  | .protocolRemoved protocol _ => (g.adapters protocol).isSome = true
  | _ => True

/-- What `get_protocol` answers under the configuration `g`. -/
def protocolReply (g : Config) (protocol : Symbol) : Outcome RouterError Address :=
  match g.admin, g.adapters protocol with
  | none, _ => .err .notInitialized
  | some _, none => .err .protocolNotFound
  | some _, some adapter => .ok adapter

end Config

/-- The event may come next: `Initialized` without an admin, everything else with one. -/
structure Config.Admits (g : Config) (e : RouterEvent) : Prop where
  first : e.isInitialized = true ↔ g.admin = none
  names : g.Names e

theorem Config.Admits.of_admin {g : Config} {e : RouterEvent} {a : Address}
    (hadmin : g.admin = some a) (hlater : e.isInitialized = false) (hnames : g.Names e) :
    g.Admits e where
  first := iff_of_false (by simp [hlater]) (by simp [hadmin])
  names := hnames

/-- The configuration after the events `es` of a new router. -/
def replay (es : List RouterEvent) : Config := es.foldl Config.apply Config.empty

/-- An event that may come next, and the configuration after it. -/
def Journals (g : Config) (e : RouterEvent) (g' : Config) : Prop := g.Admits e ∧ g.apply e = g'

theorem foldl_of_runs {g g' : Config} {es : List RouterEvent} (h : Runs Journals g es g') :
    es.foldl Config.apply g = g' := by
  induction h with
  | refl => rfl
  | tail _ hj ih => rw [List.foldl_append, ih, List.foldl_cons, List.foldl_nil, hj.2]

/-- After any event there is an admin. -/
theorem Journals.admin_ne_none {g g' : Config} {e : RouterEvent} (h : Journals g e g') :
    g'.admin ≠ none := by
  obtain ⟨hadm, rfl⟩ := h
  have hkeep : e.isInitialized = false → g.admin ≠ none := by
    intro he hnone
    rw [hadm.first.mpr hnone] at he
    cases he
  cases e with
  | initialized => exact Option.some_ne_none _
  | adminChanged => exact Option.some_ne_none _
  | pauseChanged => exact hkeep rfl
  | protocolSet => exact hkeep rfl
  | protocolRemoved => exact hkeep rfl
  | swapExecuted => exact hkeep rfl
  | hopExecuted => exact hkeep rfl
  | upgraded => exact hkeep rfl

theorem admin_eq_none_iff {g : Config} {es : List RouterEvent}
    (h : Runs Journals Config.empty es g) : g.admin = none ↔ es = [] := by
  cases h with
  | refl => exact iff_of_true rfl rfl
  | tail _ hj => exact iff_of_false hj.admin_ne_none (by simp)

/-- Events about swaps are admitted by every initialized router and change nothing. -/
theorem journals_settlement {g : Config} {a : Address} (hadmin : g.admin = some a) :
    ∀ {es : List RouterEvent}, (∀ e ∈ es, ∃ n, e.executionId? = some n) → Runs Journals g es g := by
  intro es
  induction es using List.reverseRecOn with
  | nil => exact fun _ => .refl g
  | append_singleton es e ih =>
    intro hall
    obtain ⟨n, he⟩ := hall e (by simp)
    refine .tail (ih fun e he => hall e (by simp [he])) ?_
    cases e with
    | swapExecuted => exact ⟨.of_admin hadmin rfl trivial, rfl⟩
    | hopExecuted => exact ⟨.of_admin hadmin rfl trivial, rfl⟩
    | initialized => cases he
    | adminChanged => cases he
    | pauseChanged => cases he
    | protocolSet => cases he
    | protocolRemoved => cases he
    | upgraded => cases he

/-! ## 2. Calls -/

/-- The configuration in the storage. -/
def Store.config (st : Store) : Config :=
  { admin := st.admin, paused := st.paused.getD false, adapters := st.adapterOf }

theorem Store.config_setEntry (st : Store) (p : Symbol) (e : Option (Entry Address)) :
    Config.mk st.admin (st.paused.getD false)
      (Function.update st.adapterOf p (e.map Entry.val)) = (st.setEntry p e).config := by
  refine Config.ext rfl rfl (funext fun p' => ?_)
  by_cases hp : p' = p
  · subst hp
    simp [config, adapterOf, setEntry]
  · simp [config, adapterOf, setEntry, hp]

/-- **Every entrypoint publishes what it does to the configuration.** -/
theorem Performs.journals {i : Invocation} {v : Value} {s s' : State σ}
    (hp : Performs h c s i v s') : ∃ ops, s'.log = s.log ++ ops ∧
      Runs Journals s.store.config (eventsOf ops) s'.store.config := by
  cases hp with
  | initializeRouter hnone =>
    exact ⟨_, rfl, Runs.single ⟨⟨iff_of_true rfl hnone, trivial⟩, rfl⟩⟩
  | setAdmin hadmin => exact ⟨_, rfl, Runs.single ⟨.of_admin hadmin rfl hadmin, rfl⟩⟩
  | setPaused hadmin => exact ⟨_, rfl, Runs.single ⟨.of_admin hadmin rfl hadmin, rfl⟩⟩
  | @setProtocol admin protocol adapter hadmin =>
    have hset := Store.config_setEntry s.store protocol (s.store.registered c protocol adapter)
    exact ⟨_, rfl, Runs.single ⟨.of_admin hadmin rfl trivial, hset⟩⟩
  | @removeProtocol admin protocol hadmin _ hsome =>
    have hnames : (s.store.adapterOf protocol).isSome = true := Option.isSome_map.trans hsome
    have hset := Store.config_setEntry s.store protocol none
    exact ⟨_, rfl, Runs.single ⟨.of_admin hadmin rfl hnames, hset⟩⟩
  | upgrade hadmin => exact ⟨_, rfl, Runs.single ⟨.of_admin hadmin rfl hadmin, rfl⟩⟩
  | view => exact ⟨[], (List.append_nil _).symm, .refl _⟩
  | swap had =>
    obtain ⟨a, hadmin⟩ := Option.isSome_iff_exists.mp had.initialized
    refine ⟨_, rfl, journals_settlement hadmin fun e he => ?_⟩
    rw [eventsOf_swapOps, List.mem_append, List.mem_map, List.mem_singleton] at he
    rcases he with ⟨r, -, rfl⟩ | rfl
    · exact ⟨_, rfl⟩
    · exact ⟨_, rfl⟩

/-- What `get_protocol` answers. -/
theorem getProtocol_reply (b : Chain Store σ) (p : Symbol) :
    (getProtocol p (b.start : State σ)).1 = b.store.config.protocolReply p := by
  have hread : (b.start : State σ).store = b.store := rfl
  cases hadmin : b.store.admin with
  | none =>
    have hfail : readAdmin (b.start : State σ) = (.err .notInitialized, b.start) := by
      simp [readAdmin, Exec.bind_apply, Exec.gets, Exec.okOr, Exec.fail, hread, hadmin]
    rw [getProtocol, Exec.bind_of_err hfail, Config.protocolReply]
    simp [Store.config, hadmin]
  | some a =>
    have hok : readAdmin (b.start : State σ) = (.ok a, b.start) :=
      readAdmin_eq_ok.mpr ⟨hadmin, rfl⟩
    rw [getProtocol, Exec.bind_of_ok hok, Config.protocolReply]
    cases hentry : b.store.adapterOf p <;>
      simp [Store.config, hadmin, hentry, hread, Exec.bind_apply, Exec.gets, Exec.okOr,
        Exec.fail, Exec.pure_apply]

/-! ## 3. Runs -/

theorem step_journals {b b' : Chain Store σ} {l : RouterLabel σ} (hstep : Step self b l b') :
    Runs Journals b.store.config l.events b'.store.config := by
  cases hstep with
  | returned _ _ _ hd =>
    obtain ⟨ops, hlog, hruns⟩ := (dispatch_performs hd).journals
    rw [Label.events, hlog]
    exact hruns
  | failed => exact .refl _
  | elsewhere => exact .refl _

/-- **A run of the router is a run of its configuration**, labelled by the event log. -/
theorem runs_journal {b b' : Chain Store σ} {ls : List (RouterLabel σ)}
    (hrun : Runs (Step self) b ls b') :
    Runs Journals b.store.config (journal ls) b'.store.config := by
  obtain ⟨g, rfl, hruns⟩ := hrun.simulates (fun b g => b.store.config = g) Label.events
    (fun b l b' g hg hstep => ⟨_, rfl, hg ▸ step_journals hstep⟩) rfl
  exact hruns

/-- **The audit trail is faithful.**  For every run of a new router, the replayed events are its
admin, its pause flag and its registry, as `get_protocol` answers from it; and every event was
admitted when it came, `Initialized` as the first one and never again. -/
theorem audit_trail {b b' : Chain Store σ} {ls : List (RouterLabel σ)} {until_ : Nat}
    (h0 : b.store = Store.deployed until_) (hrun : Runs (Step self) b ls b') :
    ((replay (journal ls)).admin = b'.store.admin ∧
      (replay (journal ls)).paused = b'.store.paused.getD false ∧
      ∀ p, (getProtocol p (b'.start : State σ)).1 = (replay (journal ls)).protocolReply p) ∧
    ∀ pre e post, journal ls = pre ++ e :: post →
      (e.isInitialized = true ↔ pre = []) ∧ (replay pre).Names e := by
  have hruns : Runs Journals Config.empty (journal ls) b'.store.config := by
    have hempty : b.store.config = Config.empty := by rw [h0]; rfl
    exact hempty ▸ runs_journal hrun
  have hreplay : replay (journal ls) = b'.store.config := foldl_of_runs hruns
  constructor
  · rw [hreplay]
    exact ⟨rfl, rfl, getProtocol_reply b'⟩
  · intro pre e post hsplit
    rw [hsplit] at hruns
    obtain ⟨g, g', hpre, hj, -⟩ := hruns.split_at
    have hg : replay pre = g := foldl_of_runs hpre
    rw [hg]
    exact ⟨hj.1.first.trans (admin_eq_none_iff hpre), hj.1.names⟩

theorem audit_trail_launch :
    (replay (journal Launch.log)).adapters ⟨"test"⟩ = some TestAdapter.Fixture.adapterId ∧
      Launch.launched.store.admin = some TestAdapter.Fixture.admin ∧
      (getProtocol ⟨"test"⟩ (Launch.launched.start : State TestAdapter.Deployments)).1
        = .ok TestAdapter.Fixture.adapterId := by
  obtain ⟨⟨hadmin, -, hreply⟩, -⟩ := audit_trail rfl Launch.runs
  have hreplay : (replay (journal Launch.log)).admin = some TestAdapter.Fixture.admin := by
    decide +kernel
  have hadapter : (replay (journal Launch.log)).adapters ⟨"test"⟩
      = some TestAdapter.Fixture.adapterId := by decide +kernel
  refine ⟨hadapter, hadmin.symm.trans hreplay, (hreply _).trans ?_⟩
  rw [Config.protocolReply, hreplay, hadapter]

end Stellariq.Router
