import LocalizedSite.Proofs.Number.Binary64
import LocalizedSite.Proofs.Text.Numeral

/-!
# Decimals of binary64 numbers

The number that a decimal stands for depends on the sign and the value of the decimal alone
(`of_decimal_congr`), and the decimal that is written for a finite number stands for this number
(`of_decimal_shortest`).
-/

namespace LocalizedSite

namespace Decimal

/-- The value of a decimal without its sign. -/
def value (decimal : Decimal) : ℚ :=
  decimal.digits * 10 ^ decimal.exponent

/-- The value of a decimal without its sign, as a numerator and a denominator. -/
def fraction (decimal : Decimal) : Nat × Nat :=
  if 0 ≤ decimal.exponent then (decimal.digits * Nat.pow 10 decimal.exponent.toNat, 1)
  else (decimal.digits, Nat.pow 10 (-decimal.exponent).toNat)

/-- The power of ten above the value of a decimal. -/
def magnitude (decimal : Decimal) : Int :=
  decimal.exponent + (Text.ofNat decimal.digits).length

/-- The fraction of a decimal has its value. -/
theorem fraction_spec (decimal : Decimal) : 0 < decimal.fraction.2 ∧
    (decimal.fraction.1 : ℚ) / decimal.fraction.2 = decimal.value := by
  obtain ⟨negative, digits, exponent⟩ := decimal
  unfold fraction value
  split
  · next hnonneg =>
      obtain ⟨power, rfl⟩ := Int.eq_ofNat_of_zero_le hnonneg
      refine ⟨one_pos, ?_⟩
      simp
  · next hnegative =>
      simp only at hnegative
      obtain ⟨power, hpower⟩ := Int.eq_ofNat_of_zero_le (show 0 ≤ -exponent by omega)
      obtain rfl : exponent = -(power : Int) := by omega
      refine ⟨Nat.pow_pos (by decide), ?_⟩
      simp [div_eq_mul_inv]

/-- The value of a decimal lies below the power of ten of its magnitude, and not below the one
before. -/
theorem value_bounds {decimal : Decimal} (h : decimal.digits ≠ 0) :
    (10 : ℚ) ^ (decimal.magnitude - 1) ≤ decimal.value ∧
      decimal.value < 10 ^ decimal.magnitude := by
  obtain ⟨negative, digits, exponent⟩ := decimal
  simp only at h
  have hpositive := Text.of_nat_length_pos digits
  have hlength : (Text.ofNat digits).length - 1 + 1 = (Text.ofNat digits).length := by omega
  have hlow : 10 ^ ((Text.ofNat digits).length - 1) ≤ digits := by
    by_contra hlt
    rcases Nat.eq_zero_or_pos ((Text.ofNat digits).length - 1) with hzero | hmore
    · rw [hzero] at hlt
      omega
    · have hshort := (Text.of_nat_length_le_iff hmore).mpr (not_le.mp hlt)
      omega
  have hhigh : digits < 10 ^ (Text.ofNat digits).length :=
    (Text.of_nat_length_le_iff hpositive).mp (le_refl _)
  unfold value magnitude
  constructor
  · have hcast : ((10 : ℚ) ^ ((Text.ofNat digits).length - 1)) ≤ digits := by exact_mod_cast hlow
    rw [show exponent + ((Text.ofNat digits).length : Int) - 1 =
      (((Text.ofNat digits).length - 1 : Nat) : Int) + exponent by omega,
      zpow_add₀ (by norm_num), zpow_natCast]
    exact mul_le_mul_of_nonneg_right hcast (by positivity)
  · have hcast : (digits : ℚ) < 10 ^ (Text.ofNat digits).length := by exact_mod_cast hhigh
    rw [add_comm exponent, zpow_add₀ (by norm_num), zpow_natCast]
    exact mul_lt_mul_of_pos_right hcast (by positivity)

/-- Decimals of the same value have the same magnitude. -/
theorem magnitude_congr {first second : Decimal} (hfirst : first.digits ≠ 0)
    (hsecond : second.digits ≠ 0) (h : first.value = second.value) :
    first.magnitude = second.magnitude := by
  have hle {first second : Decimal} (hfirst : first.digits ≠ 0) (hsecond : second.digits ≠ 0)
      (h : first.value = second.value) : first.magnitude ≤ second.magnitude := by
    have hlow := (value_bounds hfirst).1
    have hhigh := (value_bounds hsecond).2
    have hpowers := hlow.trans_lt (h ▸ hhigh)
    have hexponents := (zpow_lt_zpow_iff_right₀ (by norm_num)).mp hpowers
    omega
  exact le_antisymm (hle hfirst hsecond h) (hle hsecond hfirst h.symm)

end Decimal

namespace Binary64

/-- A decimal with digits stands for the number nearest to its fraction, unless it is far outside of
the format's range. -/
theorem of_decimal_eq {decimal : Decimal} (h : decimal.digits ≠ 0) :
    ofDecimal decimal =
      if decimal.magnitude < -400 then .finite decimal.negative 0 leastExponent
      else if 400 < decimal.magnitude then .infinity decimal.negative
      else nearest decimal.negative decimal.fraction.1 decimal.fraction.2 := by
  unfold ofDecimal Decimal.magnitude Decimal.fraction
  simp only [h, false_or]
  split_ifs <;> rfl

/-- A decimal without digits stands for a zero. -/
theorem of_decimal_zero {decimal : Decimal} (h : decimal.digits = 0) :
    ofDecimal decimal = .finite decimal.negative 0 leastExponent := by
  simp [ofDecimal, h]

/-- What a decimal stands for is a number of the format. -/
theorem of_decimal_is_number (decimal : Decimal) : (ofDecimal decimal).IsNumber := by
  have hzero : Fits 0 leastExponent := ⟨by norm_num, le_refl _, by decide, .inr rfl⟩
  by_cases h : decimal.digits = 0
  · rw [of_decimal_zero h]
    exact hzero
  · rw [of_decimal_eq h]
    split
    · exact hzero
    · split
      · exact trivial
      · exact nearest_is_number decimal.fraction_spec.1

/-- The number that a decimal stands for depends on its sign and value alone. -/
theorem of_decimal_congr {first second : Decimal} (hnegative : first.negative = second.negative)
    (hfirst : first.digits ≠ 0) (hsecond : second.digits ≠ 0)
    (h : first.value = second.value) : ofDecimal first = ofDecimal second := by
  obtain ⟨hbottom, hvalue⟩ := first.fraction_spec
  obtain ⟨hother, hsame⟩ := second.fraction_spec
  rw [of_decimal_eq hfirst, of_decimal_eq hsecond, hnegative,
    Decimal.magnitude_congr hfirst hsecond h,
    nearest_congr _ _ hbottom hother (by rw [hvalue, hsame, h])]

/-- Three powers of two are less than one of ten. -/
theorem two_pow_le_ten_pow (count : Nat) : (2 : ℚ) ^ (3 * count) ≤ 10 ^ count := by
  rw [pow_mul]
  exact pow_le_pow_left₀ (by norm_num) (by norm_num) count

/-- A decimal whose value is that of a number of the format stands for this number. -/
theorem of_decimal_exact {decimal : Decimal} {significand : Nat} {exponent : Int}
    (hfits : Fits significand exponent) (hsignificand : 0 < significand)
    (h : decimal.value = significand * 2 ^ exponent) :
    ofDecimal decimal = .finite decimal.negative significand exponent := by
  have hpositive : (0 : ℚ) < decimal.value := by
    rw [h]
    positivity
  have hdigits : decimal.digits ≠ 0 := by
    intro hzero
    simp [Decimal.value, hzero] at hpositive
  obtain ⟨hlow, hhigh⟩ := Decimal.value_bounds hdigits
  have hleast : (10 : ℚ) ^ (-400 : Int) ≤ decimal.value := by
    have hpower : (2 : ℚ) ^ leastExponent ≤ 2 ^ exponent :=
      zpow_le_zpow_right₀ (by norm_num) hfits.least_le
    have hone : (1 : ℚ) ≤ significand := by exact_mod_cast hsignificand
    calc (10 : ℚ) ^ (-400 : Int) ≤ 10 ^ (-358 : Int) :=
          zpow_le_zpow_right₀ (by norm_num) (by norm_num)
      _ ≤ 2 ^ leastExponent := by
          show (10 : ℚ) ^ (-((358 : Nat) : Int)) ≤ 2 ^ (-((3 * 358 : Nat) : Int))
          rw [zpow_neg, zpow_neg, zpow_natCast, zpow_natCast]
          exact inv_anti₀ (by positivity) (two_pow_le_ten_pow 358)
      _ ≤ 2 ^ exponent := hpower
      _ ≤ significand * 2 ^ exponent := le_mul_of_one_le_left (by positivity) hone
      _ = decimal.value := h.symm
  have hgreatest : decimal.value < (10 : ℚ) ^ (400 : Int) := by
    have hpower : (2 : ℚ) ^ exponent ≤ 2 ^ greatestExponent :=
      zpow_le_zpow_right₀ (by norm_num) hfits.le_greatest
    have hbits : (significand : ℚ) < 2 ^ 53 := by exact_mod_cast hfits.significand_lt
    calc decimal.value = significand * 2 ^ exponent := h
      _ < 2 ^ 53 * 2 ^ exponent := mul_lt_mul_of_pos_right hbits (by positivity)
      _ ≤ 2 ^ 53 * 2 ^ greatestExponent := mul_le_mul_of_nonneg_left hpower (by positivity)
      _ = 2 ^ (53 + 971) := by
          rw [pow_add]
          rfl
      _ ≤ 2 ^ (3 * 400) := pow_le_pow_right₀ (by norm_num) (by norm_num)
      _ ≤ (10 : ℚ) ^ (400 : Int) := two_pow_le_ten_pow 400
  have habove : ¬ decimal.magnitude < -400 := by
    have hpowers := (zpow_lt_zpow_iff_right₀ (by norm_num)).mp (hleast.trans_lt hhigh)
    omega
  have hbelow : ¬ 400 < decimal.magnitude := by
    have hpowers := (zpow_lt_zpow_iff_right₀ (by norm_num)).mp (hlow.trans_lt hgreatest)
    omega
  rw [of_decimal_eq hdigits, if_neg habove, if_neg hbelow]
  exact nearest_exact hfits hsignificand decimal.fraction_spec.1 (by rw [decimal.fraction_spec.2, h])

/-- A neighbour that is chosen is accepted. -/
theorem neighbour_accepted {accepts : Nat → Bool} {numerator denominator digits : Nat}
    {exponent : Int} (h : neighbour? accepts numerator denominator exponent = some digits) :
    accepts digits = true := by
  simp only [neighbour?] at h
  generalize (if 0 ≤ exponent then (numerator, denominator * Nat.pow 10 exponent.toNat)
    else (numerator * Nat.pow 10 (-exponent).toNat, denominator)) = fraction at h
  split at h
  · next hboth =>
      simp only [Bool.and_eq_true] at hboth
      obtain rfl := Option.some.inj h
      simp only [roundHalfEven]
      split
      · exact hboth.1
      · exact hboth.2
  · split at h
    · next hlower => exact Option.some.inj h ▸ hlower
    · split at h
      · next hupper => exact Option.some.inj h ▸ hupper
      · exact absurd h (by simp)

/-- The digits that are found are accepted. -/
theorem shortest_from_accepted {accepts : Int → Nat → Bool} {numerator denominator : Nat}
    {place : Int} {tries count digits : Nat} {power : Int}
    (h : shortestFrom accepts numerator denominator place tries count = some (digits, power)) :
    accepts power digits = true := by
  induction tries generalizing count with
  | zero => exact absurd h (by simp [shortestFrom])
  | succ tries ih =>
      simp only [shortestFrom] at h
      split at h
      · next found hfound =>
          obtain ⟨rfl, rfl⟩ := Prod.mk.inj (Option.some.inj h)
          exact neighbour_accepted hfound
      · exact ih h

/-- The decimal that is written for a number stands for this number. -/
theorem of_decimal_shortest {significand : Nat} {exponent : Int} (hfits : Fits significand exponent)
    (hsignificand : 0 < significand) (negative : Bool) :
    (shortest negative significand exponent).negative = negative ∧
      (shortest negative significand exponent).digits ≠ 0 ∧
      ofDecimal (shortest negative significand exponent) =
        .finite negative significand exponent := by
  have hdigits {decimal : Decimal}
      (h : ofDecimal decimal = .finite negative significand exponent) : decimal.digits ≠ 0 := by
    intro hzero
    rw [of_decimal_zero hzero, Binary64.finite.injEq] at h
    omega
  suffices h : (shortest negative significand exponent).negative = negative ∧
      ofDecimal (shortest negative significand exponent) =
        .finite negative significand exponent from ⟨h.1, hdigits h.2, h.2⟩
  simp only [shortest]
  split
  · next digits power hfound =>
      exact ⟨rfl, by simpa using shortest_from_accepted hfound⟩
  · refine ⟨rfl, of_decimal_exact hfits hsignificand ?_⟩
    unfold Decimal.value
    by_cases hnonneg : 0 ≤ exponent
    · obtain ⟨power, rfl⟩ := Int.eq_ofNat_of_zero_le hnonneg
      simp
    · obtain ⟨power, hpower⟩ := Int.eq_ofNat_of_zero_le (show 0 ≤ -exponent by omega)
      obtain rfl : exponent = -(power : Int) := by omega
      have hmin : min (-(power : Int)) 0 = -(power : Int) := by omega
      simp only [hnonneg, if_false, neg_neg, Int.toNat_natCast, hmin, Nat.pow_eq]
      push_cast
      rw [zpow_neg, zpow_neg, zpow_natCast, zpow_natCast, show (10 : ℚ) = 2 * 5 by norm_num,
        mul_pow]
      field_simp

end Binary64

end LocalizedSite
