/-
# Token balances that move exactly

A ledger gives every holder a balance of every token.  Balances are never negative: that is
a field of the structure, so a debit that would break it cannot be written down.  A transfer
moves exactly the amount it names or does not happen at all.

`bal_transfer` is the one fact the proofs need about a transfer.  It is written as "plus the
amount for the receiver, minus the amount for the sender", both read off the OLD balances,
so it is right as it stands when sender and receiver are the same holder.
-/
import Mathlib.Algebra.BigOperators.Group.List.Basic
import Mathlib.Algebra.Order.Ring.Int

namespace Stellariq.Kit

/-- The balances of every token `T` at every holder `H`. -/
@[ext] structure Ledger (T H : Type) where
  bal : T → H → Int
  nonneg : ∀ t x, 0 ≤ bal t x

namespace Ledger

variable {T H : Type} [DecidableEq T] [DecidableEq H]

/-- The amount `a` of token `t` at holder `x`, and nothing anywhere else. -/
def point (t : T) (x : H) (a : Int) (t' : T) (x' : H) : Int :=
  if t' = t ∧ x' = x then a else 0

/-- Move `a` of token `t` from `src` to `dst`; nothing when `a` is negative or more than
`src` has. -/
def transfer (L : Ledger T H) (t : T) (src dst : H) (a : Int) : Option (Ledger T H) :=
  if h : 0 ≤ a ∧ a ≤ L.bal t src then
    some
      { bal := fun t' x' => L.bal t' x' + point t dst a t' x' - point t src a t' x'
        nonneg := by
          intro t' x'
          have h0 := L.nonneg t' x'
          unfold point
          split <;> split <;> rename_i h1 h2
          · omega
          · omega
          · obtain ⟨rfl, rfl⟩ := h2
            omega
          · omega }
  else none

/-- The ledger after the amounts in the list, and no others, were minted. -/
def minted (holdings : List (T × H × Nat)) : Ledger T H :=
  { bal := fun t x =>
      ((holdings.map fun e => if e.1 = t ∧ e.2.1 = x then e.2.2 else 0).sum : Nat)
    nonneg := fun _ _ => Int.natCast_nonneg _ }

theorem point_self (t : T) (x : H) (a : Int) : point t x a t x = a := by simp [point]

theorem point_of_token_ne {t t' : T} (h : t' ≠ t) (x x' : H) (a : Int) :
    point t x a t' x' = 0 := by simp [point, h]

theorem point_of_holder_ne {x x' : H} (h : x' ≠ x) (t t' : T) (a : Int) :
    point t x a t' x' = 0 := by simp [point, h]

theorem point_nonneg {a : Int} (ha : 0 ≤ a) (t t' : T) (x x' : H) :
    0 ≤ point t x a t' x' := by
  unfold point; split <;> omega

/-- **When a transfer happens.**  The amount is not negative and the sender covers it. -/
theorem transfer_isSome_iff {L : Ledger T H} {t : T} {src dst : H} {a : Int} :
    (∃ L', L.transfer t src dst a = some L') ↔ 0 ≤ a ∧ a ≤ L.bal t src := by
  unfold transfer
  by_cases h : 0 ≤ a ∧ a ≤ L.bal t src
  · rw [dif_pos h]
    exact ⟨fun _ => h, fun _ => ⟨_, rfl⟩⟩
  · rw [dif_neg h]
    exact ⟨fun ⟨_, he⟩ => absurd he (by simp), fun h' => absurd h' h⟩

/-- **What a transfer does**, at every token and every holder. -/
theorem bal_transfer {L L' : Ledger T H} {t : T} {src dst : H} {a : Int}
    (h : L.transfer t src dst a = some L') (t' : T) (x' : H) :
    L'.bal t' x' = L.bal t' x' + point t dst a t' x' - point t src a t' x' := by
  unfold transfer at h
  split at h
  · cases h; rfl
  · cases h

/-- A transfer only ever debits its sender. -/
theorem le_bal_transfer {L L' : Ledger T H} {t : T} {src dst : H} {a : Int}
    (h : L.transfer t src dst a = some L') {x' : H} (hx : x' ≠ src) (t' : T) :
    L.bal t' x' ≤ L'.bal t' x' := by
  have ha : 0 ≤ a := (transfer_isSome_iff.mp ⟨L', h⟩).1
  have hp := point_nonneg ha t t' dst x'
  rw [bal_transfer h, point_of_holder_ne hx]
  omega

end Ledger

end Stellariq.Kit
