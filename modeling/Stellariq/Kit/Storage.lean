/-
# Machine integers and storage entries that expire

Integers are Lean's own; a machine operation is the exact result followed by a range check,
which is what `checked_add` and its siblings do and what the compiler's overflow checks do
before they abort.

A storage entry is a value together with the last ledger it lives in.  Writing an entry
keeps its lifetime, a new one gets the lifetime the host hands out, and `extend` is
`extend_ttl(threshold, extend_to)` by its documented rule: an entry with less than `threshold`
ledgers left is raised to `extend_to`.  The deployed host differs from the rule in one case, in
which it extends too: when exactly `threshold` ledgers are left.
-/
import Mathlib.Algebra.Order.Ring.Int

namespace Stellariq.Kit

/-! ## 1. Machine integers -/

/-- `i128::MAX` -/
def I128_MAX : Int := 170141183460469231731687303715884105727

/-- `i128::MIN` -/
def I128_MIN : Int := -170141183460469231731687303715884105728

/-- `u32::MAX` -/
def U32_MAX : Nat := 4294967295

/-- `u64::MAX` -/
def U64_MAX : Nat := 18446744073709551615

/-- The exact result `x`, if an `i128` holds it. -/
def checkedI128 (x : Int) : Option Int :=
  if I128_MIN ≤ x ∧ x ≤ I128_MAX then some x else none

/-- The exact result `n`, if a `u32` holds it. -/
def checkedU32 (n : Nat) : Option Nat := if n ≤ U32_MAX then some n else none

/-- The exact result `n`, if a `u64` holds it. -/
def checkedU64 (n : Nat) : Option Nat := if n ≤ U64_MAX then some n else none

/-- `checked_sub` of an unsigned integer -/
def checkedSub (n k : Nat) : Option Nat := if k ≤ n then some (n - k) else none

@[simp] theorem checkedI128_eq_some {x y : Int} :
    checkedI128 x = some y ↔ (I128_MIN ≤ x ∧ x ≤ I128_MAX) ∧ x = y := by
  simp [checkedI128]

@[simp] theorem checkedU32_eq_some {n k : Nat} : checkedU32 n = some k ↔ n ≤ U32_MAX ∧ n = k := by
  simp [checkedU32]

@[simp] theorem checkedU64_eq_some {n k : Nat} : checkedU64 n = some k ↔ n ≤ U64_MAX ∧ n = k := by
  simp [checkedU64]

@[simp] theorem checkedSub_eq_some {n k m : Nat} : checkedSub n k = some m ↔ k ≤ n ∧ n - k = m := by
  simp [checkedSub]

/-! ## 2. Entries with a lifetime -/

/-- A stored value and the last ledger its entry lives in. -/
structure Entry (α : Type) where
  val : α
  liveUntil : Nat
deriving DecidableEq, Repr

/-- `extend_ttl` on a lifetime, at ledger `seq`: the documented rule, below the threshold. -/
def extendTtl (seq threshold extendTo liveUntil : Nat) : Nat :=
  if liveUntil - seq < threshold then seq + extendTo else liveUntil

namespace Entry

variable {α : Type}

/-- Store `v`: an entry that is there keeps its lifetime, a new one lives until `fresh`. -/
def put (old : Option (Entry α)) (fresh : Nat) (v : α) : Entry α :=
  { val := v, liveUntil := (old.map Entry.liveUntil).getD fresh }

/-- `extend_ttl` on an entry. -/
def extend (seq threshold extendTo : Nat) (e : Entry α) : Entry α :=
  { e with liveUntil := extendTtl seq threshold extendTo e.liveUntil }

@[simp] theorem put_val (old : Option (Entry α)) (fresh : Nat) (v : α) :
    (put old fresh v).val = v := rfl

@[simp] theorem extend_val (seq threshold extendTo : Nat) (e : Entry α) :
    (e.extend seq threshold extendTo).val = e.val := rfl

end Entry

/-! ## 3. Lifetimes

`live k` is the last ledger of the entry that holds the key `k`. -/

section Lifetimes

variable {K : Type} [DecidableEq K] {live : K → Option Nat} {seq threshold extendTo : Nat}

/-- No entry has expired at ledger `seq`. -/
def Alive (live : K → Option Nat) (seq : Nat) : Prop := ∀ k u, live k = some u → seq ≤ u

/-- At ledger `seq` the entry of `k` has at least `n` ledgers left. -/
def Lasts (live : K → Option Nat) (n seq : Nat) (k : K) : Prop :=
  ∃ u, live k = some u ∧ n ≤ u - seq

/-- A renewed entry lasts. -/
theorem threshold_le_extendTtl (h : threshold ≤ extendTo) (u : Nat) :
    threshold ≤ extendTtl seq threshold extendTo u - seq := by
  unfold extendTtl
  split
  · omega
  · omega

theorem Alive.update (hlive : Alive live seq) {k : K} {u : Nat} (hu : seq ≤ u) :
    Alive (Function.update live k (some u)) seq := by
  intro k' u' h
  by_cases hk : k' = k
  · subst hk
    rw [Function.update_self] at h
    cases h
    exact hu
  · rw [Function.update_of_ne hk] at h
    exact hlive k' u' h

theorem lasts_update_self {k : K} {u n : Nat} (h : n ≤ u - seq) :
    Lasts (Function.update live k (some u)) n seq k :=
  ⟨u, Function.update_self .., h⟩

theorem lasts_update_of_ne {k k' : K} {o : Option Nat} {n : Nat} (hk : k' ≠ k) :
    Lasts (Function.update live k o) n seq k' ↔ Lasts live n seq k' := by
  simp only [Lasts, Function.update_of_ne hk]

end Lifetimes

end Stellariq.Kit
