/-
# The checked integer helpers, over all inputs

`checked_mul_div` prices a swap and `min_out_with_slippage` bounds one.  Both are an amount at a
rate, rounded down, where the inputs are valid and the exact product fits an `i128`:

* `rate_math_creates_nothing`: exactly when `checked_mul_div` has a result and which, and what
  any number of rates applied one after the other can return;
* `slippage_bound_exact`: exactly when there is a bound and which, which deliveries pass it, and
  how it moves with the amount and with the tolerance.

What an `i128` cannot hold enters in one place only, the product.  The rest is the arithmetic of
`Kit.Rate`.
-/
import Stellariq.Interfaces
import Stellariq.Kit.Rounding

namespace Stellariq

open Kit

/-! ## 1. One rate -/

/-- `checked_mul_div` is an amount at a rate: it has a result when the amount is not negative, the
rate is one, and the product fits. -/
theorem checkedMulDiv_iff_rate {amount num denom out : Int} :
    checkedMulDiv amount num denom = some out ↔
      0 ≤ amount ∧ amount * num ≤ I128_MAX ∧
        ∃ r : Rate, r.num = num ∧ r.denom = denom ∧ r.apply amount = out := by
  by_cases hguard : amount < 0 ∨ num < 0 ∨ denom ≤ 0
  · constructor
    · intro h
      rw [checkedMulDiv, if_pos hguard] at h
      cases h
    · rintro ⟨ha, -, r, rfl, rfl, -⟩
      have hn := r.num_nonneg
      have hd := r.denom_pos
      omega
  · obtain ⟨ha, hn, hd⟩ : 0 ≤ amount ∧ 0 ≤ num ∧ 0 < denom := by omega
    rw [checkedMulDiv_eq_some ha hn hd]
    constructor
    · rintro ⟨hfits, rfl⟩
      exact ⟨ha, hfits, ⟨num, denom, hn, hd⟩, rfl, rfl, rfl⟩
    · rintro ⟨-, hfits, r, rfl, rfl, rfl⟩
      exact ⟨hfits, rfl⟩

/-- At a smaller amount the same rate has a result too. -/
theorem checkedMulDiv_of_le {r : Rate} {amount amount' : Int} (hfits : amount * r.num ≤ I128_MAX)
    (hpos : 0 ≤ amount') (hle : amount' ≤ amount) :
    checkedMulDiv amount' r.num r.denom = some (r.apply amount') := by
  refine checkedMulDiv_iff_rate.mpr ⟨hpos, ?_, r, rfl, rfl, rfl⟩
  exact le_trans (mul_le_mul_of_nonneg_right hle r.num_nonneg) hfits

/-! ## 2. Rates one after the other -/

/-- `checked_mul_div` folded over a list of rates `(num, denom)`. -/
def foldRates (rates : List (Int × Int)) (amount : Int) : Option Int :=
  rates.foldlM (fun amount rate => checkedMulDiv amount rate.1 rate.2) amount

theorem foldRates_cons {rate : Int × Int} {rates : List (Int × Int)} {amount out : Int} :
    foldRates (rate :: rates) amount = some out ↔
      ∃ next, checkedMulDiv amount rate.1 rate.2 = some next ∧
        foldRates rates next = some out := by
  simp only [foldRates, List.foldlM_cons, Option.bind_eq_bind, Option.bind_eq_some_iff]

/-- **A fold that has a result is a chain of rates**, and the same chain from every smaller
amount. -/
theorem foldRates_eq_some {rates : List (Int × Int)} {amount out : Int}
    (h : foldRates rates amount = some out) :
    ∃ rs : List Rate, rates.map Prod.fst = rs.map Rate.num ∧
      rates.map Prod.snd = rs.map Rate.denom ∧ Rate.chain rs amount = out ∧
      ∀ amount', 0 ≤ amount' → amount' ≤ amount →
        foldRates rates amount' = some (Rate.chain rs amount') := by
  induction rates generalizing amount with
  | nil =>
    obtain rfl : amount = out := Option.some.inj h
    exact ⟨[], rfl, rfl, rfl, fun _ _ _ => rfl⟩
  | cons rate rates ih =>
    obtain ⟨next, hnext, hrest⟩ := foldRates_cons.mp h
    obtain ⟨-, hfits, r, hnum, hdenom, rfl⟩ := checkedMulDiv_iff_rate.mp hnext
    obtain ⟨rs, hnums, hdenoms, rfl, hsmaller⟩ := ih hrest
    refine ⟨r :: rs, ?_, ?_, rfl, fun amount' hpos hle => ?_⟩
    · rw [List.map_cons, List.map_cons, hnums, hnum]
    · rw [List.map_cons, List.map_cons, hdenoms, hdenom]
    · rw [← hnum] at hfits
      refine foldRates_cons.mpr ⟨r.apply amount', ?_, ?_⟩
      · rw [← hnum, ← hdenom]
        exact checkedMulDiv_of_le hfits hpos hle
      · exact hsmaller _ (Rate.apply_nonneg hpos) (r.apply_mono hle)

/-- **Rate math never creates value.**  `checked_mul_div` has a result exactly on a non-negative
amount and a rate whose product fits, and it is the floor of the exact quotient.  What any list
of rates makes of an amount is not worth more than it, at the product of the rates; a smaller
amount passes the same rates and comes out no larger; and a rate and its inverse return no more
than they were given. -/
theorem rate_math_creates_nothing :
    (∀ amount num denom out, checkedMulDiv amount num denom = some out ↔
      (0 ≤ amount ∧ 0 ≤ num ∧ 0 < denom ∧ amount * num ≤ I128_MAX) ∧
        out = ⌊(amount * num : ℚ) / denom⌋) ∧
    (∀ rates amount out, foldRates rates amount = some out →
      out * (rates.map Prod.snd).prod ≤ amount * (rates.map Prod.fst).prod ∧
        ∀ amount', 0 ≤ amount' → amount' ≤ amount →
          ∃ out', foldRates rates amount' = some out' ∧ out' ≤ out) ∧
    ∀ amount num denom out back, checkedMulDiv amount num denom = some out →
      checkedMulDiv out denom num = some back → back ≤ amount := by
  refine ⟨fun amount num denom out => ?_, fun rates amount out h => ?_,
    fun amount num denom out back h hback => ?_⟩
  · rw [checkedMulDiv_iff_rate]
    constructor
    · rintro ⟨ha, hfits, r, rfl, rfl, rfl⟩
      exact ⟨⟨ha, r.num_nonneg, r.denom_pos, hfits⟩, r.apply_eq_floor amount⟩
    · rintro ⟨⟨ha, hn, hd, hfits⟩, rfl⟩
      exact ⟨ha, hfits, ⟨num, denom, hn, hd⟩, rfl, rfl, Rate.apply_eq_floor _ amount⟩
  · obtain ⟨rs, hnums, hdenoms, rfl, hsmaller⟩ := foldRates_eq_some h
    rw [hnums, hdenoms]
    refine ⟨Rate.chain_mul_le rs amount, fun amount' hpos hle => ?_⟩
    exact ⟨_, hsmaller amount' hpos hle, Rate.chain_mono rs hle⟩
  · obtain ⟨-, -, r, rfl, rfl, rfl⟩ := checkedMulDiv_iff_rate.mp h
    obtain ⟨-, -, r', hnum, hdenom, rfl⟩ := checkedMulDiv_iff_rate.mp hback
    exact Rate.apply_apply_le hnum hdenom

/-- Three hops at 1 to 3, from 1000 and from less; and 10 at 1 to 3 and back. -/
theorem rate_math_creates_nothing_thirds :
    (∃ out, foldRates [(1, 3), (1, 3), (1, 3)] 1000 = some out ∧
      out * (3 * (3 * (3 * 1))) ≤ 1000 * (1 * (1 * (1 * 1))) ∧
      ∃ out', foldRates [(1, 3), (1, 3), (1, 3)] 998 = some out' ∧ out' ≤ out) ∧
    ∃ back, checkedMulDiv 3 3 1 = some back ∧ back ≤ 10 := by
  obtain ⟨-, hfold, hback⟩ := rate_math_creates_nothing
  refine ⟨?_, 9, by decide, hback 10 1 3 3 9 (by decide) (by decide)⟩
  have h : foldRates [(1, 3), (1, 3), (1, 3)] 1000 = some 37 := by decide
  obtain ⟨hvalue, hsmaller⟩ := hfold _ _ _ h
  exact ⟨37, h, hvalue, hsmaller 998 (by decide) (by decide)⟩

/-! ## 3. Slippage -/

/-- The rate a tolerance leaves. -/
def slippageRate (bps : Int) (h : bps ≤ BPS_DENOM) : Rate :=
  { num := BPS_DENOM - bps, denom := BPS_DENOM, num_nonneg := by omega, denom_pos := by decide }

/-- Within range, the subtraction does not overflow. -/
theorem checkedI128_slippage {bps : Int} (h : 0 ≤ bps ∧ bps ≤ BPS_DENOM) :
    checkedI128 (BPS_DENOM - bps) = some (BPS_DENOM - bps) := by
  refine checkedI128_eq_some.mpr ⟨⟨?_, ?_⟩, rfl⟩
  · exact le_trans (by decide) (sub_nonneg.mpr h.2)
  · exact le_trans (sub_le_self _ h.1) (by decide)

/-- **The bound, exactly**: the amount at the rate that the tolerance leaves. -/
theorem minOutWithSlippage_eq_some {amount bps m : Int} :
    minOutWithSlippage amount bps = .ok (some m) ↔
      0 ≤ bps ∧ 0 ≤ amount ∧ ∃ h : bps ≤ BPS_DENOM, amount * (BPS_DENOM - bps) ≤ I128_MAX ∧
        (slippageRate bps h).apply amount = m := by
  unfold minOutWithSlippage
  by_cases h : 0 ≤ bps ∧ bps ≤ BPS_DENOM
  · rw [if_neg (not_not.mpr h), checkedI128_slippage h]
    simp only [Outcome.ok.injEq, checkedMulDiv_iff_rate]
    constructor
    · rintro ⟨ha, hfits, r, hnum, hdenom, rfl⟩
      refine ⟨h.1, ha, h.2, hfits, ?_⟩
      rw [Rate.apply, Rate.apply, hnum, hdenom]
      rfl
    · rintro ⟨-, ha, _, hfits, rfl⟩
      exact ⟨ha, hfits, slippageRate bps h.2, rfl, rfl, rfl⟩
  · rw [if_pos h]
    constructor
    · intro hnone
      cases hnone
    · rintro ⟨h0, -, h1, -, -⟩
      exact absurd ⟨h0, h1⟩ h

theorem minOutWithSlippage_ne_trap (amount bps : Int) : minOutWithSlippage amount bps ≠ .trap := by
  unfold minOutWithSlippage
  by_cases h : 0 ≤ bps ∧ bps ≤ BPS_DENOM
  · simp [h, checkedI128_slippage h]
  · simp [h]

/-- **The slippage bound is exact and monotone.**  There is one exactly when the tolerance is in
range, the amount is not negative and the product fits.  It is the largest amount that is not
above the tolerated one, and at most the amount itself; what the router's test lets through
against it is exactly what is not a whole unit below the tolerated amount.  It does not decrease
when the amount grows, and a larger tolerance gives one that is not larger. -/
theorem slippage_bound_exact (amount bps : Int) :
    minOutWithSlippage amount bps ≠ .trap ∧
    (∀ m, minOutWithSlippage amount bps = .ok (some m) ↔
      (0 ≤ bps ∧ bps ≤ BPS_DENOM ∧ 0 ≤ amount ∧ amount * (BPS_DENOM - bps) ≤ I128_MAX) ∧
        IsGreatest {k | k * BPS_DENOM ≤ amount * (BPS_DENOM - bps)} m) ∧
    ∀ m, minOutWithSlippage amount bps = .ok (some m) →
      (0 ≤ m ∧ m ≤ amount) ∧
      (∀ {S : Type} (s : S) d,
        (Exec.failIf (d < m) RouterError.insufficientOutput : Exec S _ Unit) s = (.ok (), s) ↔
          amount * (BPS_DENOM - bps) < (d + 1) * BPS_DENOM) ∧
      (∀ amount' m', amount ≤ amount' →
        minOutWithSlippage amount' bps = .ok (some m') → m ≤ m') ∧
      ∀ bps', bps ≤ bps' → bps' ≤ BPS_DENOM →
        ∃ m', minOutWithSlippage amount bps' = .ok (some m') ∧ m' ≤ m := by
  refine ⟨minOutWithSlippage_ne_trap amount bps, fun m => ?_, fun m hm => ?_⟩
  · rw [minOutWithSlippage_eq_some]
    constructor
    · rintro ⟨h0, ha, h1, hfits, rfl⟩
      exact ⟨⟨h0, h1, ha, hfits⟩, Rate.isGreatest_apply _ amount⟩
    · rintro ⟨⟨h0, h1, ha, hfits⟩, hm⟩
      exact ⟨h0, ha, h1, hfits, (Rate.isGreatest_apply (slippageRate bps h1) amount).unique hm⟩
  · obtain ⟨h0, ha, h1, hfits, rfl⟩ := minOutWithSlippage_eq_some.mp hm
    refine ⟨⟨Rate.apply_nonneg ha, ?_⟩, fun s d => ?_, fun amount' m' hle hm' => ?_,
      fun bps' hle hmax => ?_⟩
    · exact Rate.apply_le_self (sub_le_self _ h0) ha
    · rw [Exec.failIf_eq_ok, not_lt, and_iff_left rfl]
      exact Rate.apply_le_iff
    · obtain ⟨-, -, -, -, rfl⟩ := minOutWithSlippage_eq_some.mp hm'
      exact Rate.apply_mono _ hle
    · have hnum : BPS_DENOM - bps' ≤ BPS_DENOM - bps := sub_le_sub_left hle _
      refine ⟨_, minOutWithSlippage_eq_some.mpr ⟨le_trans h0 hle, ha, hmax, ?_, rfl⟩, ?_⟩
      · exact le_trans (mul_le_mul_of_nonneg_left hnum ha) hfits
      · exact Rate.apply_le_apply rfl hnum ha

/-- One percent off ten thousand: 9900 passes and 9899 does not. -/
theorem slippage_bound_exact_percent :
    minOutWithSlippage 10000 100 = .ok (some 9900) ∧ (0 ≤ (9900 : Int) ∧ (9900 : Int) ≤ 10000) ∧
      ∃ m', minOutWithSlippage 10000 200 = .ok (some m') ∧ m' ≤ 9900 := by
  have h : minOutWithSlippage 10000 100 = .ok (some 9900) := by decide
  obtain ⟨hrange, -, -, htolerance⟩ := (slippage_bound_exact 10000 100).2.2 9900 h
  exact ⟨h, hrange, htolerance 200 (by decide) (by decide)⟩

end Stellariq
