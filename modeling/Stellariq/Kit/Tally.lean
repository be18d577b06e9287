/-
# Tallies

A list of entries, each booked under a key with an amount, and the figures one keeps about such
a list: the total, the total of each key, the number of keys.  Whoever keeps the figures up to
date entry by entry (`total_snoc`, `totalOf_snoc`, `card_keys_snoc`) keeps them right.  A key that
has not been seen is recognized by its total being zero as long as every amount is positive
(`totalOf_eq_zero_iff`), and the totals of the keys add up to the total (`finsum_totalOf`).
None of these figures depends on the order of the entries, nor on more of an entry than what they
are read from (`total_of_map_perm`, `keys_of_map_perm`).
-/
import Mathlib.Algebra.BigOperators.Finprod
import Mathlib.Algebra.Order.Ring.Int

namespace Stellariq.Kit

/-! ## 1. Lists numbered from one -/

section Numbered

variable {α : Type}

/-- The `n`-th element, counted from one. -/
def numbered (xs : List α) : Nat → Option α
  | 0 => none
  | n + 1 => xs[n]?

theorem numbered_snoc (xs : List α) (x : α) (n : Nat) :
    numbered (xs ++ [x]) n = if n = xs.length + 1 then some x else numbered xs n := by
  cases n with
  | zero => simp [numbered]
  | succ n =>
    rcases lt_trichotomy n xs.length with hlt | heq | hgt
    · simp [numbered, List.getElem?_append_left hlt, hlt.ne]
    · simp [numbered, heq]
    · have hle : (xs ++ [x]).length ≤ n := by simp; omega
      simp [numbered, List.getElem?_eq_none hle, List.getElem?_eq_none hgt.le, hgt.ne']

theorem numbered_bounds {xs : List α} {n : Nat} {x : α} (h : numbered xs n = some x) :
    1 ≤ n ∧ n ≤ xs.length := by
  cases n with
  | zero => cases h
  | succ n =>
    obtain ⟨hlt, -⟩ := List.getElem?_eq_some_iff.mp h
    omega

/-- The numbers are `1, 2, ..` up to the length. -/
theorem exists_numbered_iff {xs : List α} {n : Nat} :
    (∃ x, numbered xs n = some x) ↔ 1 ≤ n ∧ n ≤ xs.length := by
  refine ⟨fun ⟨_, h⟩ => numbered_bounds h, ?_⟩
  rintro ⟨hpos, hle⟩
  obtain ⟨m, rfl⟩ : ∃ m, n = m + 1 := ⟨n - 1, by omega⟩
  exact ⟨xs[m], List.getElem?_eq_getElem hle⟩

/-- A list is what its numbers name. -/
theorem numbered_ext {xs ys : List α} (h : ∀ n, numbered xs n = numbered ys n) : xs = ys :=
  List.ext_getElem? fun n => h (n + 1)

theorem mem_iff_numbered {xs : List α} {x : α} : x ∈ xs ↔ ∃ n, numbered xs n = some x := by
  rw [List.mem_iff_getElem?]
  constructor
  · rintro ⟨n, h⟩
    exact ⟨n + 1, h⟩
  · rintro ⟨_ | n, h⟩
    · cases h
    · exact ⟨n, h⟩

/-- What was numbered stays where it is. -/
theorem numbered_snoc_of_some {xs : List α} {n : Nat} {x : α} (h : numbered xs n = some x)
    (y : α) : numbered (xs ++ [y]) n = some x := by
  have hb := numbered_bounds h
  rw [numbered_snoc, if_neg (by omega), h]

/-- Reading all the numbers gives back the list. -/
theorem filterMap_numbered (xs : List α) :
    (List.range' 1 xs.length).filterMap (numbered xs) = xs := by
  induction xs using List.reverseRecOn with
  | nil => rfl
  | append_singleton xs x ih =>
    have hold : (List.range' 1 xs.length).filterMap (numbered (xs ++ [x]))
        = (List.range' 1 xs.length).filterMap (numbered xs) := by
      refine List.filterMap_congr ?_
      intro n hn
      have hn' := List.mem_range'_1.mp hn
      rw [numbered_snoc, if_neg (by omega)]
    rw [List.length_append, List.length_singleton, List.range'_concat, List.filterMap_append, hold,
      ih]
    simp [numbered_snoc, Nat.add_comm]

end Numbered

/-! ## 2. Totals and keys -/

section Tally

variable {α κ : Type} [DecidableEq κ] {key : α → κ} {amount : α → Int} {xs : List α}

def total (amount : α → Int) (xs : List α) : Int := (xs.map amount).sum

def totalOf (key : α → κ) (amount : α → Int) (k : κ) (xs : List α) : Int :=
  total amount (xs.filter fun x => key x = k)

def keys (key : α → κ) (xs : List α) : Finset κ := (xs.map key).toFinset

theorem total_snoc (xs : List α) (x : α) :
    total amount (xs ++ [x]) = total amount xs + amount x := by
  simp [total]

theorem totalOf_snoc (k : κ) (xs : List α) (x : α) :
    totalOf key amount k (xs ++ [x])
      = totalOf key amount k xs + if key x = k then amount x else 0 := by
  by_cases h : key x = k <;> simp [totalOf, total, List.filter_append, h]

theorem mem_keys {k : κ} : k ∈ keys key xs ↔ ∃ x ∈ xs, key x = k := by
  simp [keys]

theorem keys_snoc (xs : List α) (x : α) : keys key (xs ++ [x]) = insert (key x) (keys key xs) := by
  ext k
  simp [keys, eq_comm]

theorem card_keys_snoc (xs : List α) (x : α) :
    (keys key (xs ++ [x])).card
      = if key x ∈ keys key xs then (keys key xs).card else (keys key xs).card + 1 := by
  rw [keys_snoc, Finset.card_insert_eq_ite]

theorem total_nonneg (hpos : ∀ x ∈ xs, 0 < amount x) : 0 ≤ total amount xs := by
  refine List.sum_nonneg ?_
  intro a ha
  obtain ⟨x, hx, rfl⟩ := List.mem_map.mp ha
  exact (hpos x hx).le

theorem total_filter (p : α → Bool) :
    total amount (xs.filter p) = total (fun x => if p x = true then amount x else 0) xs := by
  induction xs with
  | nil => rfl
  | cons x xs ih =>
    simp only [total] at ih
    cases hp : p x <;> simp [total, hp, ih]

/-- The total of one key is a part of the total. -/
theorem totalOf_le (hpos : ∀ x ∈ xs, 0 < amount x) (k : κ) :
    totalOf key amount k xs ≤ total amount xs := by
  rw [totalOf, total_filter]
  refine List.sum_le_sum ?_
  intro x hx
  split
  · exact le_refl _
  · exact (hpos x hx).le

theorem totalOf_of_notMem {k : κ} (h : k ∉ keys key xs) : totalOf key amount k xs = 0 := by
  have hnil : xs.filter (fun x => key x = k) = [] := by
    refine List.filter_eq_nil_iff.mpr ?_
    intro x hx hk
    exact h (mem_keys.mpr ⟨x, hx, of_decide_eq_true hk⟩)
  rw [totalOf, hnil]
  rfl

/-- **A key has been seen** exactly when its total is not zero. -/
theorem totalOf_eq_zero_iff (hpos : ∀ x ∈ xs, 0 < amount x) {k : κ} :
    totalOf key amount k xs = 0 ↔ k ∉ keys key xs := by
  refine ⟨fun h hk => ?_, totalOf_of_notMem⟩
  obtain ⟨x, hx, rfl⟩ := mem_keys.mp hk
  obtain ⟨ys, zs, rfl⟩ := List.append_of_mem hx
  have hys : 0 ≤ totalOf key amount (key x) ys :=
    total_nonneg fun y hy => hpos y (List.mem_append_left _ (List.mem_of_mem_filter hy))
  have hzs : 0 ≤ totalOf key amount (key x) zs :=
    total_nonneg fun z hz =>
      hpos z (List.mem_append_right _ (List.mem_cons_of_mem _ (List.mem_of_mem_filter hz)))
  have hx0 := hpos x hx
  have hsplit : totalOf key amount (key x) (ys ++ x :: zs)
      = totalOf key amount (key x) ys + (amount x + totalOf key amount (key x) zs) := by
    simp [totalOf, total, List.filter_append]
  omega

theorem sum_totalOf {S : Finset κ} :
    ∀ {xs : List α}, keys key xs ⊆ S → ∑ k ∈ S, totalOf key amount k xs = total amount xs := by
  intro xs
  induction xs using List.reverseRecOn with
  | nil => intro _; simp [totalOf, total]
  | append_singleton xs x ih =>
    intro hS
    rw [keys_snoc, Finset.insert_subset_iff] at hS
    have hx : ∑ k ∈ S, (if key x = k then amount x else 0) = amount x := by
      rw [Finset.sum_ite_eq, if_pos hS.1]
    simp only [totalOf_snoc, Finset.sum_add_distrib, ih hS.2, hx, total_snoc]

theorem support_totalOf_subset :
    Function.support (fun k => totalOf key amount k xs) ⊆ (keys key xs : Set κ) := by
  intro k hk
  by_contra hmem
  exact hk (totalOf_of_notMem hmem)

/-- **The totals of the keys add up to the total.** -/
theorem finsum_totalOf : ∑ᶠ k, totalOf key amount k xs = total amount xs := by
  rw [finsum_eq_sum_of_support_subset _ support_totalOf_subset]
  exact sum_totalOf (Finset.Subset.refl _)

end Tally

/-! ## 3. The order of the entries -/

section Order

variable {α β κ : Type} [DecidableEq κ] {f : α → β} {xs ys : List α}

/-- Entries are permuted as far as `f` tells them apart, and the amount is one that `f` keeps. -/
theorem total_of_map_perm (h : (xs.map f).Perm (ys.map f)) (amount : β → Int) :
    total (fun x => amount (f x)) xs = total (fun x => amount (f x)) ys := by
  have hsum := (h.map amount).sum_eq
  rw [List.map_map, List.map_map] at hsum
  exact hsum

theorem keys_of_map_perm (h : (xs.map f).Perm (ys.map f)) (key : β → κ) :
    keys (fun x => key (f x)) xs = keys (fun x => key (f x)) ys := by
  have hkeys := List.toFinset_eq_of_perm _ _ (h.map key)
  rw [List.map_map, List.map_map] at hkeys
  exact hkeys

theorem filter_of_map_perm (h : (xs.map f).Perm (ys.map f)) (p : β → Bool) :
    ((xs.filter fun x => p (f x)).map f).Perm ((ys.filter fun x => p (f x)).map f) := by
  have hfilter := h.filter p
  rw [List.filter_map, List.filter_map] at hfilter
  exact hfilter

end Order

end Stellariq.Kit
