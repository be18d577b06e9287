/-
# The values that cross a contract boundary

`interfaces/src/lib.rs`: route steps, the router's and the adapters' error codes, the events
of the router, and the two checked integer helpers.  Names and field order follow the
source; a `u32` or `u64` that is only compared is a `Nat`, an `i128` is an `Int`.

The adapter interface is `AdapterSwap`: what one call of an adapter's `swap` may do is a
function of the call and of the whole world, and nothing else is assumed about it.  It
cannot reach the router's storage (the host forbids re-entry), which is why it is given the
world only.
-/
import Stellariq.Kit.Host

namespace Stellariq

open Kit

/-! ## 1. Constants and route steps -/

def MAX_HOPS : Nat := 5

def BPS_DENOM : Int := 10000

def EVENT_SCHEMA_VERSION : Nat := 1

structure SwapStep where
  protocol : Symbol
  pool : Address
  tokenIn : Address
  tokenOut : Address
  amountOutMin : Int
deriving DecidableEq, Repr

/-- The arguments of `Router::swap`. -/
structure SwapParams where
  trader : Address
  tokenIn : Address
  tokenOut : Address
  amountIn : Int
  amountOutMin : Int
  deadline : Nat
  path : List SwapStep
deriving DecidableEq, Repr

/-! ## 2. Error codes -/

inductive RouterError where
  | alreadyInitialized
  | notInitialized
  | notAuthorized
  | paused
  | expired
  | zeroAmount
  | invalidMinOut
  | emptyPath
  | tooManyHops
  | discontinuousPath
  | protocolNotFound
  | insufficientOutput
  | swapFailed
  | invalidAdmin
  | overflow
  | insufficientBalance
deriving DecidableEq, Repr

/-- The codes with which `swap` turns a request down. -/
def RouterError.isRejection : RouterError → Bool
  | .notInitialized | .paused | .zeroAmount | .invalidMinOut | .expired | .emptyPath
  | .tooManyHops | .discontinuousPath | .protocolNotFound | .insufficientBalance => true
  | _ => false

/-- The codes with which `swap` gives up a request that it has taken funds for. -/
def RouterError.isFailure : RouterError → Bool
  | .overflow | .swapFailed | .insufficientOutput => true
  | _ => false

inductive AdapterError where
  | notInitialized
  | notAuthorized
  | invalidRate
  | failed
  | alreadyInitialized
deriving DecidableEq, Repr

/-! ## 3. Events -/

structure SwapExecuted where
  trader : Address
  tokenIn : Address
  tokenOut : Address
  amountIn : Int
  amountOut : Int
  protocols : List Symbol
  executionId : Nat
  ledger : Nat
  version : Nat
deriving DecidableEq, Repr

structure HopExecuted where
  executionId : Nat
  trader : Address
  hopIndex : Nat
  protocol : Symbol
  pool : Address
  tokenIn : Address
  tokenOut : Address
  amountIn : Int
  amountOut : Int
  version : Nat
deriving DecidableEq, Repr

inductive RouterEvent where
  | swapExecuted (e : SwapExecuted)
  | hopExecuted (e : HopExecuted)
  | initialized (admin : Address) (version : Nat)
  | adminChanged (oldAdmin newAdmin : Address) (version : Nat)
  | pauseChanged (admin : Address) (paused : Bool) (version : Nat)
  | protocolSet (protocol : Symbol) (adapter : Address) (version : Nat)
  | protocolRemoved (protocol : Symbol) (version : Nat)
  | upgraded (admin : Address) (wasmHash : WasmHash) (version : Nat)
deriving DecidableEq, Repr

/-- The join key of a settlement record; lifecycle events carry none. -/
def RouterEvent.executionId? : RouterEvent → Option Nat
  | .swapExecuted e => some e.executionId
  | .hopExecuted e => some e.executionId
  | _ => none

def RouterEvent.isInitialized : RouterEvent → Bool
  | .initialized _ _ => true
  | _ => false

/-! ## 4. The adapter interface -/

/-- The arguments of `Adapter::swap`. -/
structure AdapterArgs where
  pool : Address
  tokenIn : Address
  tokenOut : Address
  amountIn : Int
  amountOutMin : Int
  recipient : Address
deriving DecidableEq, Repr

/-- How `try_swap` can fail: the adapter's own error, a host error that the caller recovers (a trap,
no contract at the address, re-entry), or a return value that is no `i128`.  A host error that no
caller recovers, such as an exhausted resource budget, ends the whole transaction and is not
modelled. -/
inductive AdapterFault where
  | contract (e : AdapterError)
  | invoke
  | conversion
deriving DecidableEq, Repr

/-- What the adapter at an address does: the reported amount and the world it leaves, or a
fault, which the host rolls back. -/
abbrev AdapterSwap (σ : Type) : Type :=
  Address → AdapterArgs → World σ → Except AdapterFault (Int × World σ)

/-! ## 5. Checked integer math -/

/-- `i128::checked_div` -/
def checkedDiv (a b : Int) : Option Int :=
  if b = 0 then none else checkedI128 (a.tdiv b)

/-- `checked_mul_div` -/
def checkedMulDiv (amount num denom : Int) : Option Int :=
  if amount < 0 ∨ num < 0 ∨ denom ≤ 0 then none
  else do
    let product ← checkedI128 (amount * num)
    checkedDiv product denom

/-- On a non-negative amount and a valid rate it is the floor of the exact quotient, where the
product fits. -/
theorem checkedMulDiv_eq_some {amount num denom out : Int} (ha : 0 ≤ amount) (hn : 0 ≤ num)
    (hd : 0 < denom) :
    checkedMulDiv amount num denom = some out ↔
      amount * num ≤ I128_MAX ∧ amount * num / denom = out := by
  have hguard : ¬ (amount < 0 ∨ num < 0 ∨ denom ≤ 0) := by omega
  have hprod : 0 ≤ amount * num := mul_nonneg ha hn
  have hlow : ∀ {x : Int}, 0 ≤ x → I128_MIN ≤ x := fun hx => le_trans (by decide) hx
  have hquot : 0 ≤ amount * num / denom := Int.ediv_nonneg hprod (le_of_lt hd)
  have hle : amount * num / denom ≤ amount * num := Int.ediv_le_self _ hprod
  unfold checkedMulDiv
  rw [if_neg hguard]
  simp only [Option.bind_eq_bind, Option.bind_eq_some_iff, checkedI128_eq_some, checkedDiv,
    if_neg (ne_of_gt hd)]
  constructor
  · rintro ⟨product, ⟨⟨-, hmax⟩, rfl⟩, -, hout⟩
    rw [Int.tdiv_eq_ediv_of_nonneg hprod] at hout
    exact ⟨hmax, hout⟩
  · rintro ⟨hmax, rfl⟩
    refine ⟨_, ⟨⟨hlow hprod, hmax⟩, rfl⟩, ?_⟩
    rw [Int.tdiv_eq_ediv_of_nonneg hprod]
    exact ⟨⟨hlow hquot, le_trans hle hmax⟩, rfl⟩

/-- `min_out_with_slippage`, whose plain subtraction would trap if it overflowed. -/
def minOutWithSlippage (amount slippageBps : Int) : Outcome Empty (Option Int) :=
  if ¬ (0 ≤ slippageBps ∧ slippageBps ≤ BPS_DENOM) then .ok none
  else
    match checkedI128 (BPS_DENOM - slippageBps) with
    | none => .trap
    | some num => .ok (checkedMulDiv amount num BPS_DENOM)

end Stellariq
