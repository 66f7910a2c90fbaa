import LocalizedSite.Number.Binary64
import Mathlib.Algebra.Order.Field.Power
import Mathlib.Algebra.Order.Field.Rat
import Mathlib.Data.Nat.Log
import Mathlib.Tactic.FieldSimp
import Mathlib.Tactic.Linarith
import Mathlib.Tactic.NormNum
import Mathlib.Tactic.Positivity
import Mathlib.Tactic.Ring

/-!
# Rounding to binary64

The number nearest to a fraction depends on the value of the fraction alone (`nearest_congr`), it is a
number of the format (`nearest_is_number`), and a fraction that is a number of the format is rounded to
itself (`nearest_exact`).
-/

namespace LocalizedSite.Binary64

/-- A significand and an exponent as a finite number of the format has them: the significand uses all
bits unless the exponent is the least. -/
structure Fits (significand : Nat) (exponent : Int) : Prop where
  significand_lt : significand < 2 ^ 53
  least_le : leastExponent ≤ exponent
  le_greatest : exponent ≤ greatestExponent
  full : 2 ^ 52 ≤ significand ∨ exponent = leastExponent

/-- A number of the format. -/
def IsNumber : Binary64 → Prop
  | .nan | .infinity _ => True
  | .finite _ significand exponent => Fits significand exponent

section Scaling

variable {numerator denominator : Nat}

/-- Scaling a fraction down divides it by the power of two. -/
theorem scale_down_spec (numerator : Nat) {denominator : Nat} (hdenominator : 0 < denominator)
    (exponent : Int) :
    0 < (scaleDown numerator denominator exponent).2 ∧
      ((scaleDown numerator denominator exponent).1 : ℚ) /
          (scaleDown numerator denominator exponent).2 =
        numerator / denominator / 2 ^ exponent := by
  unfold scaleDown
  split
  · next hnonneg =>
      obtain ⟨power, rfl⟩ := Int.eq_ofNat_of_zero_le hnonneg
      refine ⟨Nat.mul_pos hdenominator (Nat.pow_pos (by decide)), ?_⟩
      simp [div_div]
  · next hnegative =>
      obtain ⟨power, hpower⟩ := Int.eq_ofNat_of_zero_le (show 0 ≤ -exponent by omega)
      obtain rfl : exponent = -(power : Int) := by omega
      refine ⟨hdenominator, ?_⟩
      simp only [neg_neg, Int.toNat_natCast, zpow_neg, zpow_natCast, Nat.pow_eq]
      push_cast
      rw [div_inv_eq_mul]
      ring

/-- A quotient of natural numbers is compared as a fraction. -/
theorem div_lt_iff_rat {top bottom bound : Nat} (hbottom : 0 < bottom) :
    top / bottom < bound ↔ (top : ℚ) / bottom < bound := by
  rw [Nat.div_lt_iff_lt_mul hbottom, div_lt_iff₀ (by exact_mod_cast hbottom)]
  exact_mod_cast Iff.rfl

/-- The powers of two around a fraction. -/
theorem log_bounds (hnumerator : 0 < numerator) (hdenominator : 0 < denominator) :
    (2 : ℚ) ^ ((numerator.log2 : Int) - denominator.log2 - 1) ≤ numerator / denominator ∧
      (numerator / denominator : ℚ) < 2 ^ ((numerator.log2 : Int) - denominator.log2 + 1) := by
  have hlow : ((2 : ℚ) ^ numerator.log2) ≤ numerator := by
    exact_mod_cast Nat.log2_self_le (by omega)
  have hhigh : (numerator : ℚ) < 2 ^ (numerator.log2 + 1) := by
    exact_mod_cast Nat.lt_log2_self
  have hbelow : ((2 : ℚ) ^ denominator.log2) ≤ denominator := by
    exact_mod_cast Nat.log2_self_le (by omega)
  have habove : (denominator : ℚ) < 2 ^ (denominator.log2 + 1) := by
    exact_mod_cast Nat.lt_log2_self
  have hpositive : (0 : ℚ) < denominator := by exact_mod_cast hdenominator
  have hpower (first second : Nat) : (2 : ℚ) ^ ((first : Int) - second) = 2 ^ first / 2 ^ second := by
    rw [zpow_sub₀ (by norm_num), zpow_natCast, zpow_natCast]
  constructor
  · rw [show (numerator.log2 : Int) - denominator.log2 - 1 =
        (numerator.log2 : Nat) - ((denominator.log2 + 1 : Nat) : Int) by push_cast; ring, hpower]
    exact div_le_div₀ (by positivity) hlow hpositive habove.le
  · rw [show (numerator.log2 : Int) - denominator.log2 + 1 =
        ((numerator.log2 + 1 : Nat) : Int) - (denominator.log2 : Nat) by push_cast; ring, hpower]
    exact div_lt_div₀ hhigh hbelow (by positivity) (by positivity)

/-- An exponent fits a value if the value has a significand of 53 bits there, or of fewer at the least
exponent. -/
structure ExponentFits (value : ℚ) (exponent : Int) : Prop where
  least_le : leastExponent ≤ exponent
  value_lt : value < 2 ^ (exponent + 53)
  full : 2 ^ (exponent + 52) ≤ value ∨ exponent = leastExponent

/-- Only one exponent fits a value. -/
theorem ExponentFits.unique {value : ℚ} {exponent other : Int} (h : ExponentFits value exponent)
    (hother : ExponentFits value other) : exponent = other := by
  have hle {first second : Int} (hfirst : ExponentFits value first)
      (hsecond : ExponentFits value second) : second ≤ first := by
    by_contra hlt
    rcases hsecond.full with hfull | hleast
    · have hpowers : (2 : ℚ) ^ (first + 53) ≤ 2 ^ (second + 52) :=
        zpow_le_zpow_right₀ (by norm_num) (by omega)
      have hvalue := hfirst.value_lt
      linarith
    · have hleast' := hfirst.least_le
      omega
  exact le_antisymm (hle hother h) (hle h hother)

/-- The exponent chosen for a positive fraction fits its value. -/
theorem exponent_of_fits (hnumerator : 0 < numerator) (hdenominator : 0 < denominator) :
    ExponentFits (numerator / denominator) (exponentOf numerator denominator) := by
  obtain ⟨hlow, hhigh⟩ := log_bounds hnumerator hdenominator
  unfold exponentOf
  set estimate := max ((numerator.log2 : Int) - denominator.log2 - 53) leastExponent with hestimate
  obtain ⟨hbottom, hvalue⟩ := scale_down_spec numerator hdenominator estimate
  have hfits : (scaleDown numerator denominator estimate).1 /
        (scaleDown numerator denominator estimate).2 < Nat.pow 2 53 ↔
      (numerator / denominator : ℚ) < 2 ^ (estimate + 53) := by
    rw [div_lt_iff_rat hbottom, hvalue, div_lt_iff₀ (by positivity), zpow_add₀ (by norm_num)]
    norm_num [mul_comm]
  have hleast : leastExponent ≤ estimate := le_max_right _ _
  simp only [hfits]
  split
  · next hsmall =>
      refine ⟨hleast, hsmall, ?_⟩
      rcases max_choice ((numerator.log2 : Int) - denominator.log2 - 53) leastExponent with
        hchosen | hchosen
      · refine .inl (le_trans (le_of_eq ?_) hlow)
        rw [hestimate, hchosen]
        congr 1
        ring
      · exact .inr (hestimate.trans hchosen)
  · next hlarge =>
      have hpower : (numerator / denominator : ℚ) < 2 ^ (estimate + 1 + 53) := by
        refine hhigh.trans_le (zpow_le_zpow_right₀ (by norm_num) ?_)
        have hestimated := le_max_left ((numerator.log2 : Int) - denominator.log2 - 53) leastExponent
        omega
      refine ⟨by omega, hpower, .inl ?_⟩
      rw [show estimate + 1 + 52 = estimate + 53 by ring]
      exact not_lt.mp hlarge

/-- Rounding to an integer depends on the value of the fraction alone. -/
theorem round_half_even_congr (first second : Nat × Nat) (hfirst : 0 < first.2)
    (hsecond : 0 < second.2) (h : (first.1 : ℚ) / first.2 = second.1 / second.2) :
    roundHalfEven first.1 first.2 = roundHalfEven second.1 second.2 := by
  have hscaled (top bottom factor : Nat) (hfactor : 0 < factor) :
      roundHalfEven (top * factor) (bottom * factor) = roundHalfEven top bottom := by
    have htwice (remainder : Nat) : 2 * (remainder * factor) = 2 * remainder * factor :=
      (Nat.mul_assoc ..).symm
    simp only [roundHalfEven, Nat.mul_div_mul_right _ _ hfactor, Nat.mul_mod_mul_right, htwice,
      Nat.mul_lt_mul_right hfactor, Nat.mul_right_cancel_iff hfactor]
  have hcross : first.1 * second.2 = second.1 * first.2 := by
    rw [div_eq_div_iff (by exact_mod_cast hfirst.ne') (by exact_mod_cast hsecond.ne')] at h
    exact_mod_cast h
  rw [← hscaled first.1 first.2 second.2 hsecond, ← hscaled second.1 second.2 first.2 hfirst, hcross,
    Nat.mul_comm first.2]

/-- A fraction that is an integer is rounded to it. -/
theorem round_half_even_exact {top bottom integer : Nat} (hbottom : 0 < bottom)
    (h : (top : ℚ) / bottom = integer) : roundHalfEven top bottom = integer := by
  rw [round_half_even_congr (top, bottom) (integer, 1) hbottom one_pos (by simpa using h)]
  simp [roundHalfEven, Nat.mod_one]

/-- Rounding a fraction below a bound does not pass the bound, and rounding one above a bound does
not fall below it. -/
theorem round_half_even_bounds {top bottom low high : Nat} (hbottom : 0 < bottom)
    (hlow : (low : ℚ) ≤ top / bottom) (hhigh : (top : ℚ) / bottom < high) :
    low ≤ roundHalfEven top bottom ∧ roundHalfEven top bottom ≤ high := by
  have hquotient : top / bottom < high := (div_lt_iff_rat hbottom).mpr hhigh
  have hfloor : low ≤ top / bottom := by
    rw [Nat.le_div_iff_mul_le hbottom]
    rw [le_div_iff₀ (by exact_mod_cast hbottom)] at hlow
    exact_mod_cast hlow
  simp only [roundHalfEven]
  split <;> omega

end Scaling

section Nearest

variable {negative : Bool} {numerator denominator : Nat}

/-- The number nearest to a fraction depends on its value alone. -/
theorem nearest_congr (first second : Nat × Nat) (hfirst : 0 < first.2) (hsecond : 0 < second.2)
    (h : (first.1 : ℚ) / first.2 = second.1 / second.2) :
    nearest negative first.1 first.2 = nearest negative second.1 second.2 := by
  have hzero : first.1 = 0 ↔ second.1 = 0 := by
    have hfirst' : (first.2 : ℚ) ≠ 0 := by exact_mod_cast hfirst.ne'
    have hsecond' : (second.2 : ℚ) ≠ 0 := by exact_mod_cast hsecond.ne'
    constructor <;> intro hnothing
    · rw [hnothing, Nat.cast_zero, zero_div, eq_comm, div_eq_zero_iff] at h
      exact_mod_cast h.resolve_right hsecond'
    · rw [hnothing, Nat.cast_zero, zero_div, div_eq_zero_iff] at h
      exact_mod_cast h.resolve_right hfirst'
  simp only [nearest, hzero]
  split
  · rfl
  · next hsomething =>
      have hexponent : exponentOf first.1 first.2 = exponentOf second.1 second.2 := by
        have hfits := exponent_of_fits (Nat.pos_of_ne_zero (mt hzero.mp hsomething)) hfirst
        rw [h] at hfits
        exact hfits.unique (exponent_of_fits (Nat.pos_of_ne_zero hsomething) hsecond)
      obtain ⟨hbottom, hvalue⟩ :=
        scale_down_spec first.1 hfirst (exponentOf second.1 second.2)
      obtain ⟨hother, hsame⟩ :=
        scale_down_spec second.1 hsecond (exponentOf second.1 second.2)
      rw [hexponent, round_half_even_congr _ _ hbottom hother (by rw [hvalue, hsame, h])]

/-- A fraction that is a number of the format is rounded to itself. -/
theorem nearest_exact {significand : Nat} {exponent : Int} (hfits : Fits significand exponent)
    (hsignificand : 0 < significand) (hdenominator : 0 < denominator)
    (h : (numerator : ℚ) / denominator = significand * 2 ^ exponent) :
    nearest negative numerator denominator = .finite negative significand exponent := by
  have hpositive : 0 < numerator := by
    refine Nat.pos_of_ne_zero fun hzero ↦ ?_
    rw [hzero, Nat.cast_zero, zero_div] at h
    have hvalue : (0 : ℚ) < significand * 2 ^ exponent := by positivity
    exact hvalue.ne h
  have hexponent : exponentOf numerator denominator = exponent := by
    refine (exponent_of_fits hpositive hdenominator).unique ?_
    rw [h]
    have hsmall : (significand : ℚ) < 2 ^ (53 : Nat) := by exact_mod_cast hfits.significand_lt
    refine ⟨hfits.least_le, ?_, hfits.full.imp_left fun hfull ↦ ?_⟩
    · rw [add_comm, zpow_add₀ (by norm_num)]
      exact mul_lt_mul_of_pos_right (by exact_mod_cast hsmall) (by positivity)
    · have hlarge : (2 : ℚ) ^ (52 : Nat) ≤ significand := by exact_mod_cast hfull
      rw [add_comm, zpow_add₀ (by norm_num)]
      exact mul_le_mul_of_nonneg_right (by exact_mod_cast hlarge) (by positivity)
  obtain ⟨hbottom, hvalue⟩ := scale_down_spec numerator hdenominator exponent
  have hrounded : roundHalfEven (scaleDown numerator denominator exponent).1
      (scaleDown numerator denominator exponent).2 = significand :=
    round_half_even_exact hbottom (by rw [hvalue, h, mul_div_cancel_right₀ _ (by positivity)])
  have hbits : significand ≠ Nat.pow 2 53 := hfits.significand_lt.ne
  have hgreatest : ¬ greatestExponent < exponent := not_lt.mpr hfits.le_greatest
  simp only [nearest, hpositive.ne', if_false, hexponent, hrounded, hbits, hgreatest]

/-- The number nearest to a fraction is one of the format. -/
theorem nearest_is_number (hdenominator : 0 < denominator) :
    (nearest negative numerator denominator).IsNumber := by
  unfold nearest
  split
  · exact ⟨by norm_num, le_refl _, by decide, .inr rfl⟩
  · next hsomething =>
      have hfits := exponent_of_fits (Nat.pos_of_ne_zero hsomething) hdenominator
      obtain ⟨hbottom, hvalue⟩ := scale_down_spec numerator hdenominator
        (exponentOf numerator denominator)
      simp only
      generalize exponentOf numerator denominator = exponent at *
      have hbelow : ((scaleDown numerator denominator exponent).1 : ℚ) /
          (scaleDown numerator denominator exponent).2 < (2 ^ 53 : Nat) := by
        rw [hvalue, div_lt_iff₀ (by positivity)]
        have hlt := hfits.value_lt
        rw [add_comm, zpow_add₀ (by norm_num)] at hlt
        exact_mod_cast hlt
      have hle := (round_half_even_bounds hbottom
        (show ((0 : Nat) : ℚ) ≤ _ by rw [Nat.cast_zero]; positivity) hbelow).2
      have hfull : 2 ^ 52 ≤ roundHalfEven (scaleDown numerator denominator exponent).1
          (scaleDown numerator denominator exponent).2 ∨ exponent = leastExponent := by
        refine hfits.full.imp_left fun hlarge ↦ (round_half_even_bounds hbottom ?_ hbelow).1
        rw [hvalue, le_div_iff₀ (by positivity)]
        rw [add_comm, zpow_add₀ (by norm_num)] at hlarge
        exact_mod_cast hlarge
      generalize roundHalfEven (scaleDown numerator denominator exponent).1
        (scaleDown numerator denominator exponent).2 = rounded at *
      have hleast := hfits.least_le
      by_cases hcarry : rounded = Nat.pow 2 53
      · simp only [if_pos hcarry]
        split
        · exact trivial
        · next hgreatest =>
            exact ⟨by norm_num, by omega, not_lt.mp hgreatest, .inl (by norm_num)⟩
      · simp only [if_neg hcarry]
        split
        · exact trivial
        · next hgreatest =>
            exact ⟨lt_of_le_of_ne hle hcarry, hleast, not_lt.mp hgreatest, hfull⟩

end Nearest

end LocalizedSite.Binary64
