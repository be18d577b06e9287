/-
# The swap router, as the contract computes it

`contracts/router/src/lib.rs`, function by function and in source order.  A step lookup by
index keeps its error branch and a host operation its trap, so that their being unreachable
is something to prove.

The trader's arguments travel as one `SwapParams` (the interface crate's own mirror of the
argument list).  The model's only additions are the log of the running call and, in it, the
balances around each adapter call (`AdapterCall`), which the host has and the code reads
through `balance`.
-/
import Stellariq.Interfaces

namespace Stellariq.Router

open Kit

/-! ## 1. Storage and host -/

inductive DataKey where
  | admin
  | paused
  | nonce
  | protocol (p : Symbol)
deriving DecidableEq, Repr

def TTL_THRESHOLD : Nat := 100
def TTL_EXTEND : Nat := 10000

/-- `Admin`, `Paused` and `Nonce` share the instance entry and its lifetime; every protocol
has a persistent entry of its own. -/
structure Store where
  admin : Option Address
  paused : Option Bool
  nonce : Option Nat
  instanceUntil : Nat
  protocol : Symbol → Option (Entry Address)

/-- The storage of a router that was deployed and not yet initialized. -/
def Store.deployed (instanceUntil : Nat) : Store :=
  { admin := none, paused := none, nonce := none, instanceUntil, protocol := fun _ => none }

/-- The registry as the code reads it. -/
def Store.adapterOf (st : Store) (p : Symbol) : Option Address := (st.protocol p).map Entry.val

/-- Everything about the rest of the chain that a router call depends on. -/
structure Host (σ : Type) extends Tokens σ where
  adapterSwap : AdapterSwap σ

/-- One call of an adapter, with the balances before and after it. -/
structure AdapterCall where
  adapter : Address
  args : AdapterArgs
  before : Ledger Address Address
  report : Except AdapterFault Int
  after : Ledger Address Address

/-- What the call delivered: the increase of the recipient's balance of the output token. -/
def AdapterCall.delivered (x : AdapterCall) : Int :=
  x.after.bal x.args.tokenOut x.args.recipient - x.before.bal x.args.tokenOut x.args.recipient

abbrev Op : Type := HostOp DataKey RouterEvent AdapterCall

abbrev State (σ : Type) : Type := Running Store DataKey RouterEvent AdapterCall σ

/-- A router call that returns an `α`. -/
abbrev Call (σ α : Type) : Type := Exec (State σ) RouterError α

variable {σ : Type}

/-- `env.storage().instance().extend_ttl(TTL_THRESHOLD, TTL_EXTEND)` -/
def extendInstance (c : Ctx) : Call σ Unit :=
  touch fun st =>
    { st with instanceUntil := extendTtl c.sequence TTL_THRESHOLD TTL_EXTEND st.instanceUntil }

/-! ## 2. Private helpers -/

def readAdmin : Call σ Address := do
  let admin ← Exec.gets fun s => s.store.admin
  Exec.okOr admin .notInitialized

/-- One round of the loop in `validate_path`; `cursor` is the token the route is at. -/
def validateStep (step : Option SwapStep) (cursor : Address) : Except RouterError Address :=
  match step with
  | none => .error .emptyPath
  | some step =>
    if step.tokenIn ≠ cursor then .error .discontinuousPath
    else if step.amountOutMin < 0 then .error .invalidMinOut
    else .ok step.tokenOut

def validatePath (tokenIn tokenOut : Address) (path : List SwapStep) :
    Except RouterError Unit := do
  let cursor ← forRange (fun i cursor => validateStep path[i]? cursor) 0 path.length tokenIn
  if cursor ≠ tokenOut then .error .discontinuousPath else .ok ()

def peekNonce : Call σ Nat := do
  let _ ← readAdmin
  Exec.gets fun s => s.store.nonce.getD 0

def nextNonce : Call σ Nat := do
  let current ← peekNonce
  let next ← Exec.okOr (checkedU64 (current + 1)) .overflow
  write .nonce fun st => { st with nonce := some next }
  pure next

/-! ## 3. Lifecycle and registry -/

/-- `initialize`, whose name is a keyword here. -/
def initializeRouter (c : Ctx) (admin : Address) : Call σ Unit := do
  let existing ← Exec.gets fun s => s.store.admin
  Exec.failIf (existing.isSome = true) .alreadyInitialized
  write .admin fun st => { st with admin := some admin }
  write .paused fun st => { st with paused := some false }
  write .nonce fun st => { st with nonce := some 0 }
  extendInstance c
  publish (.initialized admin EVENT_SCHEMA_VERSION)

def setAdmin (c : Ctx) (newAdmin : Address) : Call σ Unit := do
  let oldAdmin ← readAdmin
  requireAuth c oldAdmin
  Exec.failIf (newAdmin = oldAdmin) .invalidAdmin
  write .admin fun st => { st with admin := some newAdmin }
  extendInstance c
  publish (.adminChanged oldAdmin newAdmin EVENT_SCHEMA_VERSION)

def setPaused (c : Ctx) (paused : Bool) : Call σ Unit := do
  let admin ← readAdmin
  requireAuth c admin
  write .paused fun st => { st with paused := some paused }
  extendInstance c
  publish (.pauseChanged admin paused EVENT_SCHEMA_VERSION)

/-- The registry with the entry of one protocol replaced. -/
def Store.setEntry (st : Store) (p : Symbol) (e : Option (Entry Address)) : Store :=
  { st with protocol := Function.update st.protocol p e }

def setProtocol (c : Ctx) (protocol : Symbol) (adapter : Address) : Call σ Unit := do
  let admin ← readAdmin
  requireAuth c admin
  write (.protocol protocol) fun st =>
    st.setEntry protocol (some (Entry.put (st.protocol protocol) c.freshUntil adapter))
  touch fun st =>
    st.setEntry protocol ((st.protocol protocol).map
      (Entry.extend c.sequence TTL_THRESHOLD TTL_EXTEND))
  publish (.protocolSet protocol adapter EVENT_SCHEMA_VERSION)

def removeProtocol (c : Ctx) (protocol : Symbol) : Call σ Unit := do
  let admin ← readAdmin
  requireAuth c admin
  let entry ← Exec.gets fun s => s.store.protocol protocol
  Exec.failIf (entry.isSome = false) .protocolNotFound
  write (.protocol protocol) fun st => st.setEntry protocol none
  publish (.protocolRemoved protocol EVENT_SCHEMA_VERSION)

def upgrade (c : Ctx) (wasmHash : WasmHash) : Call σ Unit := do
  let admin ← readAdmin
  requireAuth c admin
  publish (.upgraded admin wasmHash EVENT_SCHEMA_VERSION)
  updateWasm c wasmHash

/-! ## 4. Views -/

/-- `CARGO_PKG_VERSION` -/
def version : Call σ String := pure "0.1.0"

def getAdmin : Call σ Address := readAdmin

def isPaused : Call σ Bool := do
  let _ ← readAdmin
  Exec.gets fun s => s.store.paused.getD false

def getProtocol (protocol : Symbol) : Call σ Address := do
  let _ ← readAdmin
  let entry ← Exec.gets fun s => s.store.adapterOf protocol
  Exec.okOr entry .protocolNotFound

/-! ## 5. Execution -/

/-- One round of the registry pre-check, for the step found at its index. -/
def checkRegistered (pre : Option SwapStep) : Call σ Unit := do
  let pre ← Exec.okOr pre .emptyPath
  let entry ← Exec.gets fun s => s.store.adapterOf pre.protocol
  Exec.failIf (entry.isSome = false) .protocolNotFound

/-- What calling an adapter does.  The host refuses a call back into the router. -/
def callAdapter (h : Host σ) (c : Ctx) (adapter : Address) (args : AdapterArgs)
    (w : World σ) : Except AdapterFault (Int × World σ) :=
  if adapter = c.self then .error .invoke else h.adapterSwap adapter args w

/-- `AdapterClient::try_swap` with both layers of failure mapped to `SwapFailed`.  What the caller
cannot recover (see `AdapterFault`) does not occur. -/
def trySwap (h : Host σ) (c : Ctx) (adapter : Address) (args : AdapterArgs) :
    Call σ Int := fun s =>
  match callAdapter h c adapter args s.world with
  | .ok (reported, w) =>
    (.ok reported,
      { s with
        world := w
        log := s.log ++ [.call ⟨adapter, args, s.world.ledger, .ok reported, w.ledger⟩] })
  | .error fault =>
    (.err .swapFailed,
      { s with
        log := s.log ++
          [.call ⟨adapter, args, s.world.ledger, .error fault, s.world.ledger⟩] })

/-- The loop variables of the hop loop. -/
structure Progress where
  protocols : List Symbol
  hopAmountIn : Int

/-- One round of the hop loop, for the step found at index `i`. -/
def hop (h : Host σ) (c : Ctx) (trader : Address) (last executionId : Nat) (i : Nat)
    (step : Option SwapStep) (p : Progress) : Call σ Progress := do
  let step ← Exec.okOr step .emptyPath
  let entry ← Exec.gets fun s => s.store.adapterOf step.protocol
  let adapter ← Exec.okOr entry .protocolNotFound
  transfer h.toTokens c step.tokenIn c.self adapter p.hopAmountIn
  let recipient := if i = last then trader else c.self
  let before ← balance h.toTokens step.tokenOut recipient
  let reported ← trySwap h c adapter
    ⟨step.pool, step.tokenIn, step.tokenOut, p.hopAmountIn, step.amountOutMin, recipient⟩
  Exec.failIf (reported ≤ 0) .swapFailed
  let after ← balance h.toTokens step.tokenOut recipient
  let delivered ← Exec.okOr (checkedI128 (after - before)) .swapFailed
  Exec.failIf (delivered < reported) .swapFailed
  Exec.failIf (delivered < step.amountOutMin) .insufficientOutput
  publish (.hopExecuted
    { executionId, trader, hopIndex := i, protocol := step.protocol, pool := step.pool,
      tokenIn := step.tokenIn, tokenOut := step.tokenOut, amountIn := p.hopAmountIn,
      amountOut := delivered, version := EVENT_SCHEMA_VERSION })
  pure { protocols := p.protocols ++ [step.protocol], hopAmountIn := delivered }

/-- `swap` up to the point where funds first move: the guards, the route shape, the registry
pre-check and the balance pre-check. -/
def checkSwap (h : Host σ) (c : Ctx) (p : SwapParams) : Call σ Unit := do
  let _ ← readAdmin
  let paused ← Exec.gets fun s => s.store.paused.getD false
  Exec.failIf (paused = true) .paused
  requireAuth c p.trader
  Exec.failIf (p.amountIn ≤ 0) .zeroAmount
  Exec.failIf (p.amountOutMin ≤ 0) .invalidMinOut
  Exec.failIf (p.deadline < c.timestamp) .expired
  Exec.failIf (p.path.length = 0) .emptyPath
  Exec.failIf (MAX_HOPS < p.path.length) .tooManyHops
  Exec.ofExcept (validatePath p.tokenIn p.tokenOut p.path)
  forRange (fun i _ => checkRegistered p.path[i]?) 0 p.path.length ()
  let held ← balance h.toTokens p.tokenIn p.trader
  Exec.failIf (held < p.amountIn) .insufficientBalance

/-- `swap` from the pull of the trader's tokens to the returned amount. -/
def settle (h : Host σ) (c : Ctx) (p : SwapParams) : Call σ Int := do
  transfer h.toTokens c p.tokenIn p.trader c.self p.amountIn
  let last ← Exec.okOr (checkedSub p.path.length 1) .emptyPath
  let executionId ← nextNonce
  let done ← forRange (fun i q => hop h c p.trader last executionId i p.path[i]? q) 0
    p.path.length { protocols := [], hopAmountIn := p.amountIn }
  Exec.failIf (done.hopAmountIn < p.amountOutMin) .insufficientOutput
  publish (.swapExecuted
    { trader := p.trader, tokenIn := p.tokenIn, tokenOut := p.tokenOut,
      amountIn := p.amountIn, amountOut := done.hopAmountIn, protocols := done.protocols,
      executionId, ledger := c.sequence, version := EVENT_SCHEMA_VERSION })
  extendInstance c
  pure done.hopAmountIn

def swap (h : Host σ) (c : Ctx) (p : SwapParams) : Call σ Int := do
  checkSwap h c p
  settle h c p

end Stellariq.Router
