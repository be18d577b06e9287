/-
# Amounts at a rate, rounded down

A rate is a fraction with a non-negative numerator and a positive denominator, and an amount
at a rate (`Rate.apply`) is the floor of the exact product.  All that is used of the floor is
which amounts are below it (`le_apply_iff`): those that are not worth more than what was given
for them.  From that the rounded amount is never worth more than the exact one, it grows with
the amount, and it does so through any number of rates applied one after the other (`chain`):
the truncations along the way err in one direction only.
-/
import Mathlib.Algebra.BigOperators.Group.List.Basic
import Mathlib.Data.Rat.Floor
import Mathlib.Order.Bounds.Basic

namespace Stellariq.Kit

/-- `num` to `denom`. -/
structure Rate where
  num : Int
  denom : Int
  num_nonneg : 0 ≤ num
  denom_pos : 0 < denom

namespace Rate

variable {r : Rate} {a b m : Int}

/-! ## 1. One rate -/

/-- The amount `a` at the rate `r`. -/
def apply (r : Rate) (a : Int) : Int := a * r.num / r.denom

/-- It is the floor of the exact quotient. -/
theorem apply_eq_floor (r : Rate) (a : Int) : r.apply a = ⌊(a * r.num : ℚ) / r.denom⌋ := by
  obtain ⟨denom, hdenom⟩ := Int.eq_ofNat_of_zero_le (le_of_lt r.denom_pos)
  have hfloor := Rat.floor_intCast_div_natCast (a * r.num) denom
  rw [apply, hdenom]
  push_cast at hfloor ⊢
  exact hfloor.symm

/-- **What is below a rounded amount.** -/
theorem le_apply_iff : m ≤ r.apply a ↔ m * r.denom ≤ a * r.num :=
  Int.le_ediv_iff_mul_le r.denom_pos

theorem apply_le_iff : r.apply a ≤ m ↔ a * r.num < (m + 1) * r.denom := by
  rw [← Int.lt_add_one_iff, ← not_le, le_apply_iff, not_le]

/-- It is the greatest amount that is not worth more. -/
theorem isGreatest_apply (r : Rate) (a : Int) :
    IsGreatest {m | m * r.denom ≤ a * r.num} (r.apply a) :=
  ⟨le_apply_iff.mp le_rfl, fun _ hm => le_apply_iff.mpr hm⟩

theorem apply_mul_le (r : Rate) (a : Int) : r.apply a * r.denom ≤ a * r.num :=
  (isGreatest_apply r a).1

theorem apply_mono (r : Rate) (hab : a ≤ b) : r.apply a ≤ r.apply b := by
  rw [le_apply_iff]
  exact le_trans (apply_mul_le r a) (mul_le_mul_of_nonneg_right hab r.num_nonneg)

theorem apply_nonneg (ha : 0 ≤ a) : 0 ≤ r.apply a := by
  rw [le_apply_iff, zero_mul]
  exact mul_nonneg ha r.num_nonneg

/-- **Two amounts apart** give no more than both together. -/
theorem apply_add_le (r : Rate) (a b : Int) : r.apply a + r.apply b ≤ r.apply (a + b) := by
  rw [le_apply_iff, add_mul, add_mul]
  exact add_le_add (apply_mul_le r a) (apply_mul_le r b)

/-- At a rate of at most 1, nothing is gained. -/
theorem apply_le_self (hr : r.num ≤ r.denom) (ha : 0 ≤ a) : r.apply a ≤ a := by
  rw [apply_le_iff]
  calc a * r.num ≤ a * r.denom := mul_le_mul_of_nonneg_left hr ha
    _ < (a + 1) * r.denom := mul_lt_mul_of_pos_right (Int.lt_succ a) r.denom_pos

/-- A lower rate with the same denominator gives no more. -/
theorem apply_le_apply {r' : Rate} (hdenom : r'.denom = r.denom) (hnum : r'.num ≤ r.num)
    (ha : 0 ≤ a) : r'.apply a ≤ r.apply a := by
  rw [le_apply_iff, ← hdenom]
  exact le_trans (apply_mul_le r' a) (mul_le_mul_of_nonneg_left hnum ha)

/-- **There and back** at a rate and its inverse: nothing is gained. -/
theorem apply_apply_le {r' : Rate} (hnum : r'.num = r.denom) (hdenom : r'.denom = r.num) :
    r'.apply (r.apply a) ≤ a := by
  rw [apply_le_iff, hnum, hdenom]
  refine lt_of_le_of_lt (apply_mul_le r a) ?_
  exact mul_lt_mul_of_pos_right (Int.lt_succ a) (hdenom ▸ r'.denom_pos)

/-! ## 2. Rates one after the other -/

/-- The amount `a` at the first rate, the result at the second, and so on. -/
def chain (rates : List Rate) (a : Int) : Int := rates.foldl (fun a r => r.apply a) a

@[simp] theorem chain_nil (a : Int) : chain [] a = a := rfl

@[simp] theorem chain_cons (r : Rate) (rates : List Rate) (a : Int) :
    chain (r :: rates) a = chain rates (r.apply a) := rfl

theorem chain_mono (rates : List Rate) (hab : a ≤ b) : chain rates a ≤ chain rates b := by
  induction rates generalizing a b with
  | nil => exact hab
  | cons r rates ih => exact ih (r.apply_mono hab)

theorem chain_nonneg (rates : List Rate) (ha : 0 ≤ a) : 0 ≤ chain rates a := by
  induction rates generalizing a with
  | nil => exact ha
  | cons r rates ih => exact ih (apply_nonneg ha)

theorem chain_add_le (rates : List Rate) (a b : Int) :
    chain rates a + chain rates b ≤ chain rates (a + b) := by
  induction rates generalizing a b with
  | nil => exact le_refl _
  | cons r rates ih =>
    calc chain rates (r.apply a) + chain rates (r.apply b)
        ≤ chain rates (r.apply a + r.apply b) := ih _ _
      _ ≤ chain rates (r.apply (a + b)) := chain_mono rates (apply_add_le r a b)

/-- **Any number of amounts apart** give no more than all of them together. -/
theorem sum_chain_le (rates : List Rate) (as : List Int) :
    (as.map (chain rates)).sum ≤ chain rates as.sum := by
  induction as with
  | nil => exact chain_nonneg rates (le_refl 0)
  | cons a as ih =>
    rw [List.map_cons, List.sum_cons, List.sum_cons]
    exact le_trans (Int.add_le_add_left ih _) (chain_add_le rates a as.sum)

theorem prod_num_nonneg (rates : List Rate) : 0 ≤ (rates.map num).prod := by
  induction rates with
  | nil => decide
  | cons r rates ih =>
    rw [List.map_cons, List.prod_cons]
    exact mul_nonneg r.num_nonneg ih

/-- **The truncations along a chain err in one direction only**: what comes out is not worth
more than what went in, at the product of the rates. -/
theorem chain_mul_le (rates : List Rate) (a : Int) :
    chain rates a * (rates.map denom).prod ≤ a * (rates.map num).prod := by
  induction rates generalizing a with
  | nil => exact le_refl _
  | cons r rates ih =>
    simp only [List.map_cons, List.prod_cons, chain_cons]
    calc chain rates (r.apply a) * (r.denom * (rates.map denom).prod)
        = chain rates (r.apply a) * (rates.map denom).prod * r.denom := by ring
      _ ≤ r.apply a * (rates.map num).prod * r.denom :=
          mul_le_mul_of_nonneg_right (ih (r.apply a)) (le_of_lt r.denom_pos)
      _ = r.apply a * r.denom * (rates.map num).prod := by ring
      _ ≤ a * r.num * (rates.map num).prod :=
          mul_le_mul_of_nonneg_right (apply_mul_le r a) (prod_num_nonneg rates)
      _ = a * (r.num * (rates.map num).prod) := by ring

end Rate

end Stellariq.Kit
