/-
# Holdings valued at prices

Prices of finitely many tokens turn the balances of a holder into one number (`Prices.worth`).  It
is additive, so the worth of what a statement of account books is the sum of the worths of its
entries, and entries that are worth nothing to a holder, or less, make a statement that is
(`worth_statement_nonpos`).
-/
import Stellariq.Kit.Statement
import Mathlib.Algebra.BigOperators.Ring.Finset

namespace Stellariq.Kit

/-- Prices in one unit; what is not listed is worth nothing. -/
structure Prices (T : Type) where
  listed : Finset T
  price : T → Int
  nonneg : ∀ t, 0 ≤ price t
  unlisted : ∀ t, t ∉ listed → price t = 0

namespace Prices

variable {T H : Type} (π : Prices T)

/-- What the amounts `f` of the tokens are worth together. -/
def worth (f : T → Int) : Int := ∑ t ∈ π.listed, f t * π.price t

theorem worth_zero : π.worth (fun _ => 0) = 0 := by simp [worth]

theorem worth_add (f g : T → Int) : π.worth (fun t => f t + g t) = π.worth f + π.worth g := by
  simp only [worth, add_mul, Finset.sum_add_distrib]

theorem worth_sub (f g : T → Int) : π.worth (fun t => f t - g t) = π.worth f - π.worth g := by
  simp only [worth, sub_mul, Finset.sum_sub_distrib]

theorem worth_sum {L : Type} (F : L → T → Int) : ∀ ls : List L,
    π.worth (fun t => (ls.map fun l => F l t).sum) = (ls.map fun l => π.worth (F l)).sum
  | [] => π.worth_zero
  | l :: ls => by
    simp only [List.map_cons, List.sum_cons, worth_add, worth_sum F ls]

/-- **One amount of one token**, in the hands of `x`. -/
theorem worth_point [DecidableEq T] [DecidableEq H] (t : T) (x y : H) (a : Int) :
    π.worth (fun t' => Ledger.point t x a t' y) = if y = x then a * π.price t else 0 := by
  by_cases hy : y = x
  · subst hy
    have hsingle : ∀ t' ∈ π.listed, t' ≠ t → Ledger.point t y a t' y * π.price t' = 0 := by
      intro t' _ hne
      rw [Ledger.point_of_token_ne hne, zero_mul]
    rw [worth, if_pos rfl, Finset.sum_eq_single t hsingle fun hnot => by
      rw [π.unlisted t hnot, mul_zero], Ledger.point_self]
  · simp [worth, Ledger.point_of_holder_ne hy, hy]

/-- **A statement without a gain.** -/
theorem worth_statement_nonpos {G E : Type} (R : Reader G E T H) (x : H) {es : List E}
    (h : ∀ e ∈ es, ∀ g, π.worth (fun t => R.flow g e t x) ≤ 0) :
    ∀ g, π.worth (fun t => R.statement t x g es) ≤ 0 := by
  induction es with
  | nil => exact fun _ => le_of_eq π.worth_zero
  | cons e es ih =>
    intro g
    have hhead := h e List.mem_cons_self g
    have htail := ih (fun e he => h e (List.mem_cons_of_mem _ he)) (R.next g e)
    simp only [Reader.statement, worth_add]
    omega

end Prices

end Stellariq.Kit
