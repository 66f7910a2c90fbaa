import LocalizedSite.Proofs.Number.Decimal
import Mathlib.Data.List.TakeWhile

/-!
# Numbers as they are written

A written number has a sign, an integer part, a fraction and a power of ten. `layout_written` says
that the text laid out for a decimal is a written number of the same value, whichever of the forms is
chosen.
-/

namespace LocalizedSite

/-- The parts of a written number. -/
structure WrittenNumber where
  /-- Whether a minus sign stands in front. -/
  negative : Bool
  /-- The digits of the integer part. -/
  whole : Text
  /-- The digits behind the point, none if there is no point. -/
  fraction : Text
  /-- The sign and the digits of the power of ten, if there is one. -/
  power : Option (Bool × Text)

namespace WrittenNumber

/-- The text of the power of ten. -/
def powerText : Option (Bool × Text) → Text
  | none => []
  | some (negative, digits) => 'e' :: (if negative then '-' else '+') :: digits

/-- The power of ten. -/
def powerValue : Option (Bool × Text) → Int
  | none => 0
  | some (negative, digits) =>
    if negative then -(Text.decimalValue digits : Int) else Text.decimalValue digits

/-- The text of the fraction with the point before it. -/
def fractionText (fraction : Text) : Text :=
  if fraction.isEmpty then [] else '.' :: fraction

/-- The text of a written number without its sign. -/
def body (number : WrittenNumber) : Text :=
  number.whole ++ fractionText number.fraction ++ powerText number.power

/-- The text of a written number. -/
def text (number : WrittenNumber) : Text :=
  if number.negative then '-' :: number.body else number.body

/-- The decimal that a written number says. -/
def decimal (number : WrittenNumber) : Decimal :=
  ⟨number.negative, Text.decimalValue (number.whole ++ number.fraction),
    powerValue number.power - number.fraction.length⟩

/-- All parts are digits, and the integer part does not begin with a zero unless it is one. -/
structure IsProper (number : WrittenNumber) : Prop where
  whole_digits : ∀ digit ∈ number.whole, Text.isLatinDigit digit = true
  whole_head : number.whole = ['0'] ∨
    ∃ first others, number.whole = first :: others ∧ first ≠ '0'
  fraction_digits : ∀ digit ∈ number.fraction, Text.isLatinDigit digit = true
  power_digits : ∀ power ∈ number.power,
    power.2 ≠ [] ∧ ∀ digit ∈ power.2, Text.isLatinDigit digit = true

end WrittenNumber

namespace Binary64

/-- Removing zeros from the end. -/
theorem trim_zeros_spec (all : Text) :
    ∃ count, all = Text.trimEndWhere (· == '0') all ++ List.replicate count '0' := by
  refine ⟨(all.reverse.takeWhile (· == '0')).length, ?_⟩
  have hzeros : (all.reverse.takeWhile (· == '0')).reverse =
      List.replicate (all.reverse.takeWhile (· == '0')).length '0' := by
    refine List.eq_replicate_iff.mpr ⟨List.length_reverse, fun digit hmem ↦ ?_⟩
    simpa using List.mem_takeWhile_imp (List.mem_reverse.mp hmem)
  rw [← hzeros, Text.trimEndWhere, ← List.reverse_append, List.takeWhile_append_dropWhile,
    List.reverse_reverse]

/-- The significant digits of a decimal: what is left of the numeral without the zeros at its end. -/
structure Significant (decimal : Decimal) (digits : Text) : Prop where
  all_digits : ∀ digit ∈ digits, Text.isLatinDigit digit = true
  head_ne : ∃ first others, digits = first :: others ∧ first ≠ '0'
  value_eq : decimal.value =
    Text.decimalValue digits * 10 ^ (decimal.magnitude - digits.length)

/-- The significant digits of a decimal that has any. -/
theorem trim_zeros_significant {decimal : Decimal} (h : decimal.digits ≠ 0) :
    Significant decimal (Text.trimEndWhere (· == '0') (Text.ofNat decimal.digits)) := by
  obtain ⟨count, hall⟩ := trim_zeros_spec (Text.ofNat decimal.digits)
  set digits := Text.trimEndWhere (· == '0') (Text.ofNat decimal.digits) with hdigits
  have hvalue : decimal.digits = Text.decimalValue digits * 10 ^ count := by
    have hsame := Text.decimal_value_of_nat decimal.digits
    rw [hall, Text.decimal_value_append, Text.decimal_value_zeros, List.length_replicate] at hsame
    omega
  refine ⟨fun digit hmem ↦ ?_, ?_, ?_⟩
  · have hnumeral : digit ∈ Text.ofNat decimal.digits := by
      rw [hall]
      exact List.mem_append_left _ hmem
    exact Text.latin_digit_of_mem_of_nat hnumeral
  · cases hcases : digits with
    | nil =>
        rw [hcases] at hvalue
        exact absurd (by simpa [Text.decimalValue] using hvalue) h
    | cons first others =>
        refine ⟨first, others, rfl, fun hzero ↦ ?_⟩
        refine Text.of_nat_head (Nat.pos_of_ne_zero h) ?_
        rw [hall, hcases, hzero]
        rfl
  · have hlength : ((Text.ofNat decimal.digits).length : Int) = digits.length + count := by
      rw [hall]
      simp
    rw [Decimal.value, Decimal.magnitude, hlength, hvalue]
    push_cast
    rw [mul_assoc, ← zpow_natCast, ← zpow_add₀ (by norm_num)]
    congr 2
    ring

/-- A single zero is made of digits. -/
theorem zero_digit : ∀ digit ∈ ['0'], Text.isLatinDigit digit = true := by
  intro digit hmem
  rw [List.mem_singleton.mp hmem]
  decide

/-- The positional form with the point in front of the digits. -/
theorem small_written {digits : Text} (hdigits : ∀ digit ∈ digits, Text.isLatinDigit digit = true)
    (negative : Bool) {place : Int} (hplace : place ≤ 0) :
    let number : WrittenNumber :=
      ⟨negative, ['0'], List.replicate (-place).toNat '0' ++ digits, none⟩
    number.IsProper ∧ number.decimal.value =
      Text.decimalValue digits * 10 ^ (place - digits.length) := by
  refine ⟨⟨zero_digit, .inl rfl, fun digit hmem ↦ ?_, by simp⟩, ?_⟩
  · rcases List.mem_append.mp hmem with hmem | hmem
    · rw [List.eq_of_mem_replicate hmem]
      decide
    · exact hdigits digit hmem
  · have hvalue : Text.decimalValue (['0'] ++ (List.replicate (-place).toNat '0' ++ digits)) =
        Text.decimalValue digits := by
      rw [Text.decimal_value_append, Text.decimal_value_append, Text.decimal_value_zeros]
      simp [Text.decimalValue]
    have hexponent : (0 : Int) - (List.replicate (-place).toNat '0' ++ digits).length =
        place - digits.length := by
      rw [List.length_append, List.length_replicate]
      push_cast
      omega
    simp only [WrittenNumber.decimal, WrittenNumber.powerValue, Decimal.value, hvalue, hexponent]

/-- The positional form with zeros behind the digits. -/
theorem large_written {digits : Text} (hdigits : ∀ digit ∈ digits, Text.isLatinDigit digit = true)
    (hhead : ∃ first others, digits = first :: others ∧ first ≠ '0') (negative : Bool)
    {place : Int} (hplace : (digits.length : Int) ≤ place) :
    let number : WrittenNumber :=
      ⟨negative, digits ++ List.replicate (place - digits.length).toNat '0', ['0'], none⟩
    number.IsProper ∧ number.decimal.value =
      Text.decimalValue digits * 10 ^ (place - digits.length) := by
  obtain ⟨count, hcount⟩ := Int.eq_ofNat_of_zero_le (sub_nonneg.mpr hplace)
  rw [hcount, Int.toNat_natCast]
  refine ⟨⟨fun digit hmem ↦ ?_, .inr ?_, zero_digit, by simp⟩, ?_⟩
  · rcases List.mem_append.mp hmem with hmem | hmem
    · exact hdigits digit hmem
    · rw [List.eq_of_mem_replicate hmem]
      decide
  · obtain ⟨first, others, rfl, hfirst⟩ := hhead
    exact ⟨first, _, rfl, hfirst⟩
  · have hvalue : Text.decimalValue (digits ++ List.replicate count '0' ++ ['0']) =
        Text.decimalValue digits * 10 ^ (count + 1) := by
      rw [List.append_assoc, ← List.replicate_succ', Text.decimal_value_append,
        Text.decimal_value_zeros, List.length_replicate, Nat.add_zero]
    simp only [WrittenNumber.decimal, WrittenNumber.powerValue, Decimal.value, hvalue,
      List.length_singleton]
    push_cast
    rw [mul_assoc, ← zpow_natCast, ← zpow_add₀ (by norm_num)]
    congr 2
    push_cast
    ring

/-- A form with the point behind some of the digits. -/
theorem split_written {digits : Text} (hdigits : ∀ digit ∈ digits, Text.isLatinDigit digit = true)
    (hhead : ∃ first others, digits = first :: others ∧ first ≠ '0') (negative : Bool)
    {count : Nat} (hpositive : 0 < count) (hcount : count ≤ digits.length)
    {power : Option (Bool × Text)}
    (hpower : ∀ found ∈ power,
      found.2 ≠ [] ∧ ∀ digit ∈ found.2, Text.isLatinDigit digit = true) :
    let number : WrittenNumber := ⟨negative, digits.take count, digits.drop count, power⟩
    number.IsProper ∧ number.decimal.value = Text.decimalValue digits *
      10 ^ (WrittenNumber.powerValue power + count - digits.length) := by
  refine ⟨⟨fun digit hmem ↦ hdigits digit (List.mem_of_mem_take hmem), .inr ?_,
    fun digit hmem ↦ hdigits digit (List.mem_of_mem_drop hmem), hpower⟩, ?_⟩
  · obtain ⟨first, others, rfl, hfirst⟩ := hhead
    obtain ⟨less, rfl⟩ := Nat.exists_eq_succ_of_ne_zero hpositive.ne'
    exact ⟨first, others.take less, rfl, hfirst⟩
  · simp only [WrittenNumber.decimal, Decimal.value, List.take_append_drop, List.length_drop]
    congr 2
    push_cast [hcount]
    ring

/-- The power of ten as it is laid out: a sign and at least two digits. -/
def layoutPower (power : Int) : Bool × Text :=
  (power < 0, List.replicate (2 - (Text.ofNat power.natAbs).length) '0' ++ Text.ofNat power.natAbs)

/-- The power of ten that is laid out is made of digits and has its value. -/
theorem layout_power_written (power : Int) :
    (∀ found ∈ some (layoutPower power),
      found.2 ≠ [] ∧ ∀ digit ∈ found.2, Text.isLatinDigit digit = true) ∧
      WrittenNumber.powerValue (some (layoutPower power)) = power := by
  have hvalue : Text.decimalValue (layoutPower power).2 = power.natAbs := by
    rw [layoutPower, Text.decimal_value_append, Text.decimal_value_zeros,
      Text.decimal_value_of_nat, Nat.zero_mul, Nat.zero_add]
  refine ⟨fun found hfound ↦ ?_, ?_⟩
  · obtain rfl := Option.some.inj hfound
    refine ⟨fun hnil ↦ ?_, fun digit hmem ↦ ?_⟩
    · have hlength := Text.of_nat_length_pos power.natAbs
      rw [(List.append_eq_nil_iff.mp hnil).2] at hlength
      exact absurd hlength (lt_irrefl _)
    · rcases List.mem_append.mp hmem with hmem | hmem
      · rw [List.eq_of_mem_replicate hmem]
        decide
      · exact Text.latin_digit_of_mem_of_nat hmem
  · simp only [WrittenNumber.powerValue, layoutPower] at *
    rw [hvalue]
    by_cases hnegative : power < 0
    · simp only [hnegative, decide_true, if_true]
      omega
    · simp only [hnegative, decide_false, Bool.false_eq_true, if_false]
      omega

/-- A fraction that has digits stands behind a point. -/
theorem fraction_text_of_ne_nil {fraction : Text} (h : fraction ≠ []) :
    WrittenNumber.fractionText fraction = '.' :: fraction := by
  obtain ⟨first, others, rfl⟩ := List.exists_cons_of_ne_nil h
  rfl

/-- The text of a written number whose text without sign is known. -/
theorem text_eq {number : WrittenNumber} {body : Text} (h : number.body = body) :
    number.text = if number.negative then '-' :: body else body := by
  rw [WrittenNumber.text, h]

/-- The text laid out for a decimal is a written number with a point or a power of ten, and says the
same value. -/
theorem layout_written {decimal : Decimal} (h : decimal.digits ≠ 0) :
    ∃ number : WrittenNumber, number.IsProper ∧ number.text = layout decimal ∧
      (number.fraction ≠ [] ∨ number.power ≠ none) ∧ number.negative = decimal.negative ∧
        number.decimal.value = decimal.value := by
  have hsignificant := trim_zeros_significant h
  have hplace : decimal.exponent + ((Text.ofNat decimal.digits).length : Int) =
    decimal.magnitude := rfl
  unfold layout
  simp only [hplace]
  generalize Text.trimEndWhere (· == '0') (Text.ofNat decimal.digits) = digits at *
  obtain ⟨hdigits, hhead, hvalue⟩ := hsignificant
  have hpositive : 0 < digits.length := by
    obtain ⟨first, others, rfl, -⟩ := hhead
    exact Nat.succ_pos _
  rw [hvalue]
  generalize decimal.magnitude = place at *
  by_cases hrange : -4 < place ∧ place ≤ 16
  · rw [if_pos hrange]
    by_cases hsmall : place ≤ 0
    · rw [if_pos hsmall]
      obtain ⟨hproper, hsame⟩ := small_written hdigits decimal.negative hsmall
      have hfraction : List.replicate (-place).toNat '0' ++ digits ≠ [] :=
        List.append_ne_nil_of_right_ne_nil _ (List.length_pos_iff.mp hpositive)
      refine ⟨_, hproper, text_eq ?_, .inl hfraction, rfl, hsame⟩
      simp only [WrittenNumber.body, fraction_text_of_ne_nil hfraction, WrittenNumber.powerText,
        List.append_nil]
      rfl
    · rw [if_neg hsmall]
      by_cases hlarge : (digits.length : Int) ≤ place
      · rw [if_pos hlarge]
        obtain ⟨hproper, hsame⟩ := large_written hdigits hhead decimal.negative hlarge
        refine ⟨_, hproper, text_eq ?_, .inl (by simp), rfl, hsame⟩
        simp only [WrittenNumber.body, WrittenNumber.powerText, List.append_nil]
        rfl
      · rw [if_neg hlarge]
        have hpower : ∀ found ∈ (none : Option (Bool × Text)),
            found.2 ≠ [] ∧ ∀ digit ∈ found.2, Text.isLatinDigit digit = true := by simp
        obtain ⟨count, rfl⟩ := Int.eq_ofNat_of_zero_le (le_of_not_ge hsmall)
        simp only [Int.toNat_natCast]
        have hrest : digits.drop count ≠ [] := by
          rw [Ne, List.drop_eq_nil_iff]
          omega
        obtain ⟨hproper, hsame⟩ := split_written hdigits hhead decimal.negative
          (show 0 < count by omega) (show count ≤ digits.length by omega) hpower
        rw [WrittenNumber.powerValue, zero_add] at hsame
        refine ⟨_, hproper, text_eq ?_, .inl hrest, rfl, hsame⟩
        simp only [WrittenNumber.body, fraction_text_of_ne_nil hrest, WrittenNumber.powerText,
          List.append_nil]
  · rw [if_neg hrange]
    obtain ⟨hpower, hplaced⟩ := layout_power_written (place - 1)
    obtain ⟨hproper, hsame⟩ := split_written hdigits hhead decimal.negative one_pos hpositive hpower
    rw [hplaced, Nat.cast_one, sub_add_cancel] at hsame
    refine ⟨_, hproper, text_eq ?_, .inr (by simp), rfl, hsame⟩
    simp only [WrittenNumber.body, WrittenNumber.powerText, layoutPower, decide_eq_true_eq,
      WrittenNumber.fractionText, List.append_assoc]
    rfl

end Binary64

end LocalizedSite
