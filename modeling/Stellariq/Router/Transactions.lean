/-
# The router as a state machine

All entrypoints under one type (`Invocation`), and what each of them does when it returns
(`Performs`), one rule for an entrypoint: what it required, the storage it leaves, and everything
it did.  `dispatch_performs` is the only place where the lifecycle entrypoints are unfolded; the
invariants of runs are read off the rules.
-/
import Stellariq.Router.Events
import Stellariq.Kit.Transactions

namespace Stellariq.Router

open Kit

variable {σ : Type} {h : Host σ} {c : Ctx}

/-! ## 1. Entrypoints -/

inductive Invocation where
  | initializeRouter (admin : Address)
  | setAdmin (newAdmin : Address)
  | setPaused (paused : Bool)
  | setProtocol (protocol : Symbol) (adapter : Address)
  | removeProtocol (protocol : Symbol)
  | upgrade (wasmHash : WasmHash)
  | version
  | getAdmin
  | isPaused
  | getProtocol (protocol : Symbol)
  | swap (p : SwapParams)
deriving DecidableEq

inductive Value where
  | unit
  | text (s : String)
  | address (a : Address)
  | bool (b : Bool)
  | amount (v : Int)
deriving DecidableEq

/-- The value of a call, as a value of an entrypoint. -/
def returning {α : Type} (f : α → Value) (x : Call σ α) : Call σ Value := do
  let a ← x
  pure (f a)

def dispatch (h : Host σ) (c : Ctx) : Invocation → Call σ Value
  | .initializeRouter admin => returning (fun _ => .unit) (initializeRouter c admin)
  | .setAdmin newAdmin => returning (fun _ => .unit) (setAdmin c newAdmin)
  | .setPaused paused => returning (fun _ => .unit) (setPaused c paused)
  | .setProtocol protocol adapter => returning (fun _ => .unit) (setProtocol c protocol adapter)
  | .removeProtocol protocol => returning (fun _ => .unit) (removeProtocol c protocol)
  | .upgrade wasmHash => returning (fun _ => .unit) (upgrade c wasmHash)
  | .version => returning .text version
  | .getAdmin => returning .address getAdmin
  | .isPaused => returning .bool isPaused
  | .getProtocol protocol => returning .address (getProtocol protocol)
  | .swap p => returning .amount (swap h c p)

abbrev RouterLabel (σ : Type) : Type :=
  Label (Host σ) Invocation Value DataKey RouterEvent AdapterCall RouterError

/-- The steps of the router at the address `self`. -/
abbrev Step (self : Address) : Chain Store σ → RouterLabel σ → Chain Store σ → Prop :=
  TxStep dispatch self

/-- The entrypoints that only read. -/
def Invocation.isView : Invocation → Bool
  | .version | .getAdmin | .isPaused | .getProtocol _ => true
  | _ => false

/-! ## 2. What a call that returned has done -/

/-- The lifetime of the instance entry after a call that renews it. -/
def Store.renewed (st : Store) (c : Ctx) : Store :=
  { st with instanceUntil := extendTtl c.sequence TTL_THRESHOLD TTL_EXTEND st.instanceUntil }

/-- The entry that `set_protocol` leaves. -/
def Store.registered (st : Store) (c : Ctx) (protocol : Symbol) (adapter : Address) :
    Entry Address :=
  (Entry.put (st.protocol protocol) c.freshUntil adapter).extend c.sequence TTL_THRESHOLD
    TTL_EXTEND

/-- From the state `s`, the call returned `v` and left the state `s'`. -/
inductive Performs (h : Host σ) (c : Ctx) (s : State σ) : Invocation → Value → State σ → Prop
  | initializeRouter {admin : Address} :
      s.store.admin = none →
      Performs h c s (.initializeRouter admin) .unit
        { store := Store.renewed
            { s.store with admin := some admin, paused := some false, nonce := some 0 } c
          world := s.world
          log := s.log ++ [.write .admin, .write .paused, .write .nonce,
            .event (.initialized admin EVENT_SCHEMA_VERSION)] }
  | setAdmin {oldAdmin newAdmin : Address} :
      s.store.admin = some oldAdmin → c.Authorizes oldAdmin → newAdmin ≠ oldAdmin →
      Performs h c s (.setAdmin newAdmin) .unit
        { store := Store.renewed { s.store with admin := some newAdmin } c
          world := s.world
          log := s.log ++ [.write .admin,
            .event (.adminChanged oldAdmin newAdmin EVENT_SCHEMA_VERSION)] }
  | setPaused {admin : Address} {paused : Bool} :
      s.store.admin = some admin → c.Authorizes admin →
      Performs h c s (.setPaused paused) .unit
        { store := Store.renewed { s.store with paused := some paused } c
          world := s.world
          log := s.log ++ [.write .paused,
            .event (.pauseChanged admin paused EVENT_SCHEMA_VERSION)] }
  | setProtocol {admin : Address} {protocol : Symbol} {adapter : Address} :
      s.store.admin = some admin → c.Authorizes admin →
      Performs h c s (.setProtocol protocol adapter) .unit
        { store := s.store.setEntry protocol (some (s.store.registered c protocol adapter))
          world := s.world
          log := s.log ++ [.write (.protocol protocol),
            .event (.protocolSet protocol adapter EVENT_SCHEMA_VERSION)] }
  | removeProtocol {admin : Address} {protocol : Symbol} :
      s.store.admin = some admin → c.Authorizes admin →
      (s.store.protocol protocol).isSome = true →
      Performs h c s (.removeProtocol protocol) .unit
        { store := s.store.setEntry protocol none
          world := s.world
          log := s.log ++ [.write (.protocol protocol),
            .event (.protocolRemoved protocol EVENT_SCHEMA_VERSION)] }
  | upgrade {admin : Address} {wasmHash : WasmHash} :
      s.store.admin = some admin → c.Authorizes admin → c.uploaded wasmHash = true →
      Performs h c s (.upgrade wasmHash) .unit
        { store := s.store
          world := s.world
          log := s.log ++ [.event (.upgraded admin wasmHash EVENT_SCHEMA_VERSION),
            .updateWasm wasmHash] }
  | view {i : Invocation} {v : Value} : i.isView = true → Performs h c s i v s
  | swap {p : SwapParams} {v : Int} {w₁ w' : World σ} {xs : List AdapterCall} :
      Admitted h c p s → s.store.nonce.getD 0 < U64_MAX →
      s.world.pay h.toTokens p.tokenIn p.trader c.self p.amountIn = some w₁ →
      Settles h c s.store.adapterOf p.trader p.path w₁ p.amountIn xs w' v →
      p.amountOutMin ≤ v →
      Performs h c s (.swap p) (.amount v)
        { store := s.store.settled c (s.store.nonce.getD 0 + 1)
          world := w'
          log := s.log ++ swapOps c p (s.store.nonce.getD 0 + 1) xs v }

theorem returning_eq_ok {α : Type} {f : α → Value} {x : Call σ α} {s s' : State σ} {v : Value} :
    returning f x s = (.ok v, s') ↔ ∃ a, x s = (.ok a, s') ∧ f a = v :=
  Exec.bind_pure_eq_ok

/-- A function of the admin only reads. -/
theorem view_eq_ok {α : Type} {f : Address → Call σ α} {s s' : State σ} {a : α}
    (hf : ∀ x s s' a, f x s = (.ok a, s') → s' = s)
    (hok : (readAdmin >>= f) s = (.ok a, s')) : s' = s := by
  simp only [Exec.bind_eq_ok, readAdmin_eq_ok] at hok
  obtain ⟨x, _, ⟨-, rfl⟩, hx⟩ := hok
  exact hf _ _ _ _ hx

section Entrypoints

variable {s s' : State σ} {u : Unit}

theorem initializeRouter_performs {admin : Address}
    (hok : initializeRouter c admin s = (.ok u, s')) :
    Performs h c s (.initializeRouter admin) .unit s' := by
  simp only [initializeRouter, extendInstance, Exec.bind_eq_ok, Exec.gets_eq_ok,
    Exec.failIf_eq_ok, write_eq_ok, touch_eq_ok, publish_eq_ok, exists_const, and_assoc,
    exists_and_left, exists_eq_left, exists_eq_left', List.append_assoc, List.cons_append,
    List.nil_append] at hok
  obtain ⟨hnone, rfl⟩ := hok
  exact .initializeRouter (Option.not_isSome_iff_eq_none.mp hnone)

theorem setAdmin_performs {newAdmin : Address} (hok : setAdmin c newAdmin s = (.ok u, s')) :
    Performs h c s (.setAdmin newAdmin) .unit s' := by
  simp only [setAdmin, extendInstance, Exec.bind_eq_ok, readAdmin_eq_ok, requireAuth_eq_ok,
    Exec.failIf_eq_ok, write_eq_ok, touch_eq_ok, publish_eq_ok, exists_const, and_assoc,
    exists_and_left, exists_eq_left, List.append_assoc, List.cons_append,
    List.nil_append] at hok
  obtain ⟨oldAdmin, hadmin, hauth, hne, rfl⟩ := hok
  exact .setAdmin hadmin hauth hne

theorem setPaused_performs {paused : Bool} (hok : setPaused c paused s = (.ok u, s')) :
    Performs h c s (.setPaused paused) .unit s' := by
  simp only [setPaused, extendInstance, Exec.bind_eq_ok, readAdmin_eq_ok, requireAuth_eq_ok,
    write_eq_ok, touch_eq_ok, publish_eq_ok, exists_const, and_assoc, exists_and_left,
    exists_eq_left, List.append_assoc, List.cons_append, List.nil_append] at hok
  obtain ⟨admin, hadmin, hauth, rfl⟩ := hok
  exact .setPaused hadmin hauth

theorem setProtocol_performs {protocol : Symbol} {adapter : Address}
    (hok : setProtocol c protocol adapter s = (.ok u, s')) :
    Performs h c s (.setProtocol protocol adapter) .unit s' := by
  simp only [setProtocol, Exec.bind_eq_ok, readAdmin_eq_ok, requireAuth_eq_ok,
    write_eq_ok, touch_eq_ok, publish_eq_ok, exists_const, and_assoc, exists_and_left,
    exists_eq_left, List.append_assoc, List.cons_append, List.nil_append] at hok
  obtain ⟨admin, hadmin, hauth, rfl⟩ := hok
  have hp : Performs h c s (.setProtocol protocol adapter) .unit _ := .setProtocol hadmin hauth
  simpa [Store.setEntry, Store.registered] using hp

theorem removeProtocol_performs {protocol : Symbol}
    (hok : removeProtocol c protocol s = (.ok u, s')) :
    Performs h c s (.removeProtocol protocol) .unit s' := by
  simp only [removeProtocol, Exec.bind_eq_ok, readAdmin_eq_ok, requireAuth_eq_ok,
    Exec.gets_eq_ok, Exec.failIf_eq_ok, write_eq_ok, publish_eq_ok, exists_const, and_assoc,
    exists_and_left, exists_eq_left, exists_eq_left', List.append_assoc, List.cons_append,
    List.nil_append, Bool.not_eq_false] at hok
  obtain ⟨admin, hadmin, hauth, hsome, rfl⟩ := hok
  exact .removeProtocol hadmin hauth hsome

theorem upgrade_performs {wasmHash : WasmHash} (hok : upgrade c wasmHash s = (.ok u, s')) :
    Performs h c s (.upgrade wasmHash) .unit s' := by
  simp only [upgrade, Exec.bind_eq_ok, readAdmin_eq_ok, requireAuth_eq_ok, publish_eq_ok,
    updateWasm_eq_ok, exists_const, and_assoc, exists_and_left, exists_eq_left,
    List.append_assoc, List.cons_append, List.nil_append] at hok
  obtain ⟨admin, hadmin, hauth, hup, rfl⟩ := hok
  exact .upgrade hadmin hauth hup

theorem swap_performs {p : SwapParams} {v : Int} (hok : swap h c p s = (.ok v, s')) :
    Performs h c s (.swap p) (.amount v) s' := by
  obtain ⟨had, hn, w₁, xs, w', hpay, hset, hmin, rfl⟩ := swap_eq_ok_iff.mp hok
  exact .swap had hn hpay hset hmin

end Entrypoints

/-- **What a call that returned has done.** -/
theorem dispatch_performs {i : Invocation} {v : Value} {s s' : State σ}
    (hok : dispatch h c i s = (.ok v, s')) : Performs h c s i v s' := by
  cases i with
  | initializeRouter admin =>
    obtain ⟨_, hx, rfl⟩ := returning_eq_ok.mp hok
    exact initializeRouter_performs hx
  | setAdmin newAdmin =>
    obtain ⟨_, hx, rfl⟩ := returning_eq_ok.mp hok
    exact setAdmin_performs hx
  | setPaused paused =>
    obtain ⟨_, hx, rfl⟩ := returning_eq_ok.mp hok
    exact setPaused_performs hx
  | setProtocol protocol adapter =>
    obtain ⟨_, hx, rfl⟩ := returning_eq_ok.mp hok
    exact setProtocol_performs hx
  | removeProtocol protocol =>
    obtain ⟨_, hx, rfl⟩ := returning_eq_ok.mp hok
    exact removeProtocol_performs hx
  | upgrade wasmHash =>
    obtain ⟨_, hx, rfl⟩ := returning_eq_ok.mp hok
    exact upgrade_performs hx
  | version =>
    obtain ⟨_, hx, rfl⟩ := returning_eq_ok.mp hok
    obtain ⟨rfl, rfl⟩ := Exec.pure_eq_ok.mp hx
    exact .view rfl
  | getAdmin =>
    obtain ⟨_, hx, rfl⟩ := returning_eq_ok.mp hok
    obtain ⟨-, rfl⟩ := readAdmin_eq_ok.mp hx
    exact .view rfl
  | isPaused =>
    obtain ⟨_, hx, rfl⟩ := returning_eq_ok.mp hok
    obtain rfl := view_eq_ok (fun _ s s' a hf => (Exec.gets_eq_ok.mp hf).2) hx
    exact .view rfl
  | getProtocol protocol =>
    obtain ⟨_, hx, rfl⟩ := returning_eq_ok.mp hok
    obtain rfl := view_eq_ok (fun _ s s' a hf => by
      obtain ⟨_, _, hg, hf⟩ := Exec.bind_eq_ok.mp hf
      rw [(Exec.okOr_eq_ok.mp hf).2, (Exec.gets_eq_ok.mp hg).2]) hx
    exact .view rfl
  | swap p =>
    obtain ⟨_, hx, rfl⟩ := returning_eq_ok.mp hok
    exact swap_performs hx

/-! ## 3. The launch of a router -/

namespace Launch

open TestAdapter.Fixture

def deployed : Chain Store TestAdapter.Deployments :=
  { store := Store.deployed 10000, world := funded.world, now := 1000, seq := 1 }

/-- Initialize, register the adapter, swap over two hops. -/
def calls : List (Host TestAdapter.Deployments × Ctx × Invocation) :=
  [(chain, ctx, .initializeRouter admin), (chain, ctx, .setProtocol ⟨"test"⟩ adapterId),
    (chain, ctx, .swap twoHops)]

def log : List (RouterLabel TestAdapter.Deployments) := (deployed.execAll dispatch calls).1

def launched : Chain Store TestAdapter.Deployments := (deployed.execAll dispatch calls).2

theorem runs : Runs (Step routerId) deployed log launched :=
  Chain.execAll_runs calls deployed (by simp [calls, deployed, ctx])

end Launch

end Stellariq.Router
