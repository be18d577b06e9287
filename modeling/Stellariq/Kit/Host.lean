/-
# The host a contract runs on

What a Soroban contract can see and do while it runs: its own storage, the token balances
of everybody, the ledger clock, the set of addresses that authorized the call, and the log
of what the call has done so far.  The rest of the chain (other contracts' storage) is the
type `σ`, about which nothing is assumed.

Four rules of the host are built in.

* `requireAuth`: an address must be among those that authorized the call.  A contract never
  authorizes itself this way: only a DIRECT caller is implied to authorize, and a contract
  is not its own direct caller.
* `transfer`: a SEP-41 transfer needs the sender's authorization, or the sender to be the
  contract that makes the call.  It moves exactly the amount or traps; a token may also trap
  for reasons of its own (`Tokens.refuses`), and there may be no token at the address.  A trap
  aborts the contract that called the token, and which code the token lends that abort is not
  modelled.
* the log records transfers, calls of other contracts, storage writes and events in order.
  It is what the host itself keeps for a running call, and it is discarded with the rest of
  the call's effects when the call fails.
* storage writes are per entry; `extend_ttl` changes no value and is not a write.
-/
import Stellariq.Kit.Exec
import Stellariq.Kit.Ledger
import Stellariq.Kit.Storage

namespace Stellariq.Kit

/-! ## 1. Calls -/

/-- An account or a contract. -/
structure Address where
  key : Nat
deriving DecidableEq, Repr

/-- A short name (`soroban_sdk::Symbol`). -/
structure Symbol where
  name : String
deriving DecidableEq, Repr

/-- A byte string (`soroban_sdk::String`), whose `len` counts bytes. -/
structure Text where
  bytes : List UInt8
deriving DecidableEq, Repr

def Text.len (t : Text) : Nat := t.bytes.length

/-- The hash of an uploaded contract code (`BytesN<32>`). -/
structure WasmHash where
  code : Nat
deriving DecidableEq, Repr

/-- The token balances, and everything else outside the contract. -/
structure World (σ : Type) where
  ledger : Ledger Address Address
  rest : σ

/-- `TokenClient::balance`, where there is a token. -/
def World.bal {σ : Type} (w : World σ) (token holder : Address) : Int :=
  w.ledger.bal token holder

/-- What is specific to the tokens: at which addresses there is one, and which transfers one
refuses although the sender's balance covers them. -/
structure Tokens (σ : Type) where
  isToken : World σ → Address → Bool
  refuses : World σ → Address → Address → Address → Int → Bool

/-- The token at `t` exists and traps only when the sender's balance is too small. -/
structure Tokens.Exact {σ : Type} (T : Tokens σ) (t : Address) : Prop where
  isToken : ∀ w, T.isToken w t = true
  accepts : ∀ w src dst a, T.refuses w t src dst a = false

/-- A token at every address, and no refusals. -/
def Tokens.standard {σ : Type} : Tokens σ :=
  { isToken := fun _ _ => true, refuses := fun _ _ _ _ _ => false }

theorem Tokens.standard_exact {σ : Type} (t : Address) : (Tokens.standard (σ := σ)).Exact t :=
  ⟨fun _ => rfl, fun _ _ _ _ => rfl⟩

/-- The circumstances of one call. -/
structure Ctx where
  /-- `env.current_contract_address()` -/
  self : Address
  /-- the addresses that authorized the call -/
  auths : Address → Bool
  /-- `env.ledger().timestamp()` -/
  timestamp : Nat
  /-- `env.ledger().sequence()` -/
  sequence : Nat
  /-- the last ledger in which a persistent entry created now will live -/
  freshUntil : Nat
  /-- the contract codes that have been uploaded -/
  uploaded : WasmHash → Bool

/-- `require_auth` passes for `a`. -/
def Ctx.Authorizes (c : Ctx) (a : Address) : Prop := a ≠ c.self ∧ c.auths a = true

instance (c : Ctx) (a : Address) : Decidable (c.Authorizes a) := by
  unfold Ctx.Authorizes; infer_instance

/-- One thing a call did.  `K` are the contract's storage keys, `E` its events, `X` the
calls it makes to contracts other than tokens. -/
inductive HostOp (K E X : Type) where
  | transfer (token src dst : Address) (amount : Int)
  | call (x : X)
  | write (key : K)
  | event (e : E)
  | updateWasm (hash : WasmHash)

namespace HostOp

variable {K E X : Type}

def event? : HostOp K E X → Option E
  | .event e => some e
  | _ => none

def call? : HostOp K E X → Option X
  | .call x => some x
  | _ => none

/-- `(token, src, dst, amount)` of a transfer. -/
def transfer? : HostOp K E X → Option (Address × Address × Address × Int)
  | .transfer t src dst a => some (t, src, dst, a)
  | _ => none

/-- The operation, with less known about the calls. -/
def mapCall {Y : Type} (f : X → Y) : HostOp K E X → HostOp K E Y
  | .transfer t src dst a => .transfer t src dst a
  | .call x => .call (f x)
  | .write k => .write k
  | .event e => .event e
  | .updateWasm hash => .updateWasm hash

theorem event?_mapCall {Y : Type} (f : X → Y) (op : HostOp K E X) :
    (op.mapCall f).event? = op.event? := by
  cases op <;> rfl

end HostOp

/-- The events among what a call did, in order. -/
def eventsOf {K E X : Type} (log : List (HostOp K E X)) : List E := log.filterMap HostOp.event?

/-- The calls to other contracts, in order. -/
def callsOf {K E X : Type} (log : List (HostOp K E X)) : List X := log.filterMap HostOp.call?

/-- The token transfers, in order. -/
def transfersOf {K E X : Type} (log : List (HostOp K E X)) :
    List (Address × Address × Address × Int) := log.filterMap HostOp.transfer?

theorem eventsOf_append {K E X : Type} (l l' : List (HostOp K E X)) :
    eventsOf (l ++ l') = eventsOf l ++ eventsOf l' := List.filterMap_append

theorem eventsOf_mapCall {K E X Y : Type} (f : X → Y) (l : List (HostOp K E X)) :
    eventsOf (l.map (HostOp.mapCall f)) = eventsOf l := by
  rw [eventsOf, eventsOf, List.filterMap_map]
  congr 1
  funext op
  exact HostOp.event?_mapCall f op

theorem callsOf_append {K E X : Type} (l l' : List (HostOp K E X)) :
    callsOf (l ++ l') = callsOf l ++ callsOf l' := List.filterMap_append

theorem transfersOf_append {K E X : Type} (l l' : List (HostOp K E X)) :
    transfersOf (l ++ l') = transfersOf l ++ transfersOf l' := List.filterMap_append

/-- The state of a running call of a contract with storage `R`. -/
@[ext] structure Running (R K E X σ : Type) where
  store : R
  world : World σ
  log : List (HostOp K E X)

/-- What a call did between two of its states. -/
def Running.since {R K E X σ : Type} (s s' : Running R K E X σ) : List (HostOp K E X) :=
  s'.log.drop s.log.length

theorem Running.since_eq {R K E X σ : Type} {s s' : Running R K E X σ}
    {ops : List (HostOp K E X)} (h : s'.log = s.log ++ ops) : s.since s' = ops := by
  simp [Running.since, h]

section Ops

variable {R K E X σ ε : Type}

/-- `a.require_auth()` -/
def requireAuth (c : Ctx) (a : Address) : Exec (Running R K E X σ) ε Unit :=
  if c.Authorizes a then pure () else Exec.trap

/-- The world after a token moved `a` from `src` to `dst`, if it does. -/
def World.pay (T : Tokens σ) (w : World σ) (t src dst : Address) (a : Int) :
    Option (World σ) :=
  if T.isToken w t = true ∧ T.refuses w t src dst a = false then
    (w.ledger.transfer t src dst a).map fun L => { w with ledger := L }
  else none

/-- `TokenClient::new(&env, &t).transfer(&src, &dst, &a)`.  `trap` is an abort of the calling
contract, with whatever code the failed call of the token lends it: that code is not modelled. -/
def transfer (T : Tokens σ) (c : Ctx) (t src dst : Address) (a : Int) :
    Exec (Running R K E X σ) ε Unit := fun s =>
  if src = c.self ∨ c.Authorizes src then
    match s.world.pay T t src dst a with
    | some w => (.ok (), { s with world := w, log := s.log ++ [.transfer t src dst a] })
    | none => (.trap, s)
  else (.trap, s)

/-- `TokenClient::new(&env, &t).balance(&x)`, with `trap` as for `transfer`. -/
def balance (T : Tokens σ) (t x : Address) : Exec (Running R K E X σ) ε Int := fun s =>
  if T.isToken s.world t = true then (.ok (s.world.bal t x), s) else (.trap, s)

/-- Write one storage entry. -/
def write (k : K) (f : R → R) : Exec (Running R K E X σ) ε Unit :=
  Exec.modify fun s => { s with store := f s.store, log := s.log ++ [.write k] }

/-- Change the storage without changing a value (`extend_ttl`). -/
def touch (f : R → R) : Exec (Running R K E X σ) ε Unit :=
  Exec.modify fun s => { s with store := f s.store }

/-- `e.publish(&env)` -/
def publish (e : E) : Exec (Running R K E X σ) ε Unit :=
  Exec.modify fun s => { s with log := s.log ++ [.event e] }

/-- `env.deployer().update_current_contract_wasm(hash)` -/
def updateWasm (c : Ctx) (hash : WasmHash) : Exec (Running R K E X σ) ε Unit := fun s =>
  if c.uploaded hash then (.ok (), { s with log := s.log ++ [.updateWasm hash] })
  else (.trap, s)

end Ops

/-! ## 2. Payments -/

section Pay

variable {σ : Type} {T : Tokens σ} {w w' : World σ} {t src dst : Address} {a : Int}

theorem World.pay_eq_some :
    w.pay T t src dst a = some w' ↔
      (T.isToken w t = true ∧ T.refuses w t src dst a = false) ∧
        ∃ L, w.ledger.transfer t src dst a = some L ∧ { w with ledger := L } = w' := by
  unfold World.pay
  by_cases h : T.isToken w t = true ∧ T.refuses w t src dst a = false
  · rw [if_pos h, Option.map_eq_some_iff]
    exact ⟨fun hL => ⟨h, hL⟩, fun hL => hL.2⟩
  · rw [if_neg h]
    exact ⟨fun hn => absurd hn (by simp), fun hL => absurd hL.1 h⟩

/-- **A payment**, at every token and every holder. -/
theorem World.bal_pay (h : w.pay T t src dst a = some w') (t' x' : Address) :
    w'.bal t' x' = w.bal t' x' + Ledger.point t dst a t' x' - Ledger.point t src a t' x' := by
  obtain ⟨-, L, hL, rfl⟩ := World.pay_eq_some.mp h
  exact Ledger.bal_transfer hL t' x'

theorem World.le_bal_pay (h : w.pay T t src dst a = some w') {x' : Address} (hx : x' ≠ src)
    (t' : Address) : w.bal t' x' ≤ w'.bal t' x' := by
  obtain ⟨-, L, hL, rfl⟩ := World.pay_eq_some.mp h
  exact Ledger.le_bal_transfer hL hx t'

theorem World.nonneg_of_pay (h : w.pay T t src dst a = some w') : 0 ≤ a := by
  obtain ⟨-, L, hL, -⟩ := World.pay_eq_some.mp h
  exact (Ledger.transfer_isSome_iff.mp ⟨L, hL⟩).1

theorem World.covered_of_pay (h : w.pay T t src dst a = some w') : a ≤ w.bal t src := by
  obtain ⟨-, L, hL, -⟩ := World.pay_eq_some.mp h
  exact (Ledger.transfer_isSome_iff.mp ⟨L, hL⟩).2

theorem World.rest_pay (h : w.pay T t src dst a = some w') : w'.rest = w.rest := by
  obtain ⟨-, L, -, rfl⟩ := World.pay_eq_some.mp h
  rfl

theorem World.bal_nonneg (w : World σ) (t x : Address) : 0 ≤ w.bal t x := w.ledger.nonneg t x

/-- What was paid is with the receiver. -/
theorem World.le_bal_of_pay (h : w.pay T t src dst a = some w') (hne : dst ≠ src) :
    a ≤ w'.bal t dst := by
  have h₁ := World.bal_pay h t dst
  rw [Ledger.point_self, Ledger.point_of_holder_ne hne] at h₁
  have h₂ := World.bal_nonneg w t dst
  omega

/-- **When a payment happens.** -/
theorem World.exists_pay_iff :
    (∃ w', w.pay T t src dst a = some w') ↔
      (T.isToken w t = true ∧ T.refuses w t src dst a = false) ∧ 0 ≤ a ∧ a ≤ w.bal t src := by
  constructor
  · rintro ⟨w', h⟩
    exact ⟨(World.pay_eq_some.mp h).1, World.nonneg_of_pay h, World.covered_of_pay h⟩
  · rintro ⟨htok, hcov⟩
    obtain ⟨L, hL⟩ := Ledger.transfer_isSome_iff.mpr hcov
    exact ⟨_, World.pay_eq_some.mpr ⟨htok, L, hL, rfl⟩⟩

/-- A covered payment of a well-behaved token goes through. -/
theorem World.exists_pay (hT : T.Exact t) (ha : 0 ≤ a) (hle : a ≤ w.bal t src) :
    ∃ w', w.pay T t src dst a = some w' :=
  World.exists_pay_iff.mpr ⟨⟨hT.isToken w, hT.accepts w src dst a⟩, ha, hle⟩

end Pay

/-! ## 3. The host operations, inverted -/

section Invert

variable {R K E X σ ε : Type} {s s' : Running R K E X σ} {u : Unit} {c : Ctx}

@[simp] theorem requireAuth_eq_ok {a : Address} :
    (requireAuth c a : Exec (Running R K E X σ) ε Unit) s = (.ok u, s') ↔
      c.Authorizes a ∧ s' = s := by
  unfold requireAuth
  by_cases h : c.Authorizes a
  · rw [if_pos h]
    simp [h, Exec.pure_apply, eq_comm]
  · rw [if_neg h]
    simp [h, Exec.trap]

@[simp] theorem balance_eq_ok {T : Tokens σ} {t x : Address} {b : Int} :
    (balance T t x : Exec (Running R K E X σ) ε Int) s = (.ok b, s') ↔
      T.isToken s.world t = true ∧ s.world.bal t x = b ∧ s' = s := by
  unfold balance
  by_cases h : T.isToken s.world t = true
  · rw [if_pos h]
    simp [h, eq_comm]
  · rw [if_neg h]
    simp [h]

@[simp] theorem transfer_eq_ok {T : Tokens σ} {t src dst : Address} {a : Int} :
    (transfer T c t src dst a : Exec (Running R K E X σ) ε Unit) s = (.ok u, s') ↔
      (src = c.self ∨ c.Authorizes src) ∧ ∃ w, s.world.pay T t src dst a = some w ∧
        s' = { s with world := w, log := s.log ++ [.transfer t src dst a] } := by
  unfold transfer
  by_cases h : src = c.self ∨ c.Authorizes src
  · rw [if_pos h]
    cases hp : s.world.pay T t src dst a <;> simp [h, eq_comm]
  · rw [if_neg h]
    simp [h]

@[simp] theorem updateWasm_eq_ok {hash : WasmHash} :
    (updateWasm c hash : Exec (Running R K E X σ) ε Unit) s = (.ok u, s') ↔
      c.uploaded hash = true ∧ s' = { s with log := s.log ++ [.updateWasm hash] } := by
  unfold updateWasm
  by_cases h : c.uploaded hash = true
  · rw [if_pos h]
    simp [h, eq_comm]
  · rw [if_neg h]
    simp [h]

@[simp] theorem write_eq_ok {k : K} {f : R → R} :
    (write k f : Exec (Running R K E X σ) ε Unit) s = (.ok u, s') ↔
      s' = { s with store := f s.store, log := s.log ++ [.write k] } :=
  Exec.modify_eq_ok

@[simp] theorem touch_eq_ok {f : R → R} :
    (touch f : Exec (Running R K E X σ) ε Unit) s = (.ok u, s') ↔
      s' = { s with store := f s.store } :=
  Exec.modify_eq_ok

@[simp] theorem publish_eq_ok {e : E} :
    (publish e : Exec (Running R K E X σ) ε Unit) s = (.ok u, s') ↔
      s' = { s with log := s.log ++ [.event e] } :=
  Exec.modify_eq_ok

end Invert

/-! ## 4. The host operations that do not trap -/

section Safe

variable {R K E X σ ε : Type} {s : Running R K E X σ} {c : Ctx} {T : Tokens σ} {t : Address}

theorem safe_requireAuth {a : Address} (ha : c.Authorizes a) :
    Exec.Safe (requireAuth c a : Exec (Running R K E X σ) ε Unit) s := by
  rw [requireAuth, if_pos ha]
  exact Exec.safe_pure () s

theorem safe_balance (ht : T.isToken s.world t = true) (x : Address) :
    Exec.Safe (balance T t x : Exec (Running R K E X σ) ε Int) s := by
  simp [Exec.Safe, balance, ht]

/-- A transfer of a well-behaved token traps for want of an authorization or of a balance
only. -/
theorem safe_transfer (hT : T.Exact t) {src dst : Address} {a : Int}
    (hauth : src = c.self ∨ c.Authorizes src) (ha : 0 ≤ a) (hle : a ≤ s.world.bal t src) :
    Exec.Safe (transfer T c t src dst a : Exec (Running R K E X σ) ε Unit) s := by
  obtain ⟨w, hw⟩ : ∃ w, s.world.pay T t src dst a = some w := World.exists_pay hT ha hle
  simp [Exec.Safe, transfer, hauth, hw]

end Safe

/-! ## 5. The host operations return no error codes -/

section Fails

variable {R K E X σ ε : Type} {Q : ε → Running R K E X σ → Prop} {P : ε → Prop}
  {s : Running R K E X σ}

theorem reads_requireAuth (c : Ctx) (a : Address) :
    Exec.Reads P (requireAuth c a : Exec (Running R K E X σ) ε Unit) := by
  unfold requireAuth
  split
  · exact Exec.reads_pure ()
  · exact fun _ => ⟨rfl, fun _ h => by cases h⟩

theorem reads_balance (T : Tokens σ) (t x : Address) :
    Exec.Reads P (balance T t x : Exec (Running R K E X σ) ε Int) := by
  intro s
  unfold balance
  split
  · exact ⟨rfl, fun _ h => by cases h⟩
  · exact ⟨rfl, fun _ h => by cases h⟩

theorem fails_balance (T : Tokens σ) (t x : Address) :
    Exec.Fails Q (balance T t x : Exec (Running R K E X σ) ε Int) s := by
  intro e s' h
  exact ((reads_balance (P := fun _ => False) T t x).fails e s' h).1.elim

theorem fails_transfer (T : Tokens σ) (c : Ctx) (t src dst : Address) (a : Int) :
    Exec.Fails Q (transfer T c t src dst a : Exec (Running R K E X σ) ε Unit) s := by
  intro e s' h
  unfold transfer at h
  split at h
  · split at h <;> cases h
  · cases h

end Fails

end Stellariq.Kit
