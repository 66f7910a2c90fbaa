import LocalizedSite.Text.DecimalDigit
import Mathlib.Algebra.Order.Ring.Nat
import Mathlib.Data.List.Basic

/-!
# Numerals in texts

The digits of a number tell the number, also behind other text that ends with a character that is no
digit, and in front of text that begins with one.
-/

namespace LocalizedSite.Text

/-- The numerals consist of digits. -/
theorem digit_of_mem_of_nat {number : Nat} {character : Char} (h : character ∈ ofNat number) :
    character.isDigit = true :=
  Nat.isDigit_of_mem_toDigits (by decide) (by decide) h

/-- The numerals consist of digits of the basic Latin block. -/
theorem latin_digit_of_mem_of_nat {number : Nat} {character : Char}
    (h : character ∈ ofNat number) : isLatinDigit character = true := by
  have hdigit := digit_of_mem_of_nat h
  simp only [Char.isDigit, Bool.and_eq_true, decide_eq_true_eq] at hdigit
  simp only [isLatinDigit, Bool.and_eq_true, decide_eq_true_eq]
  exact hdigit

/-- The value of digits is computed from the first digit to the last. -/
theorem decimal_value_eq (digits : Text) : decimalValue digits = Nat.ofDigitChars 10 digits 0 := by
  unfold decimalValue Nat.ofDigitChars
  congr 1
  funext value digit
  rw [Nat.mul_comm]

/-- A numeral has the value of its number. -/
theorem decimal_value_of_nat (number : Nat) : decimalValue (ofNat number) = number := by
  rw [decimal_value_eq]
  exact Nat.ofDigitChars_ten_toDigits

/-- Digits behind others move these to higher places. -/
theorem decimal_value_append (front back : Text) :
    decimalValue (front ++ back) = decimalValue front * 10 ^ back.length + decimalValue back := by
  rw [decimal_value_eq, Nat.ofDigitChars_append, Nat.ofDigitChars_eq_ofDigitChars_zero,
    ← decimal_value_eq, ← decimal_value_eq, Nat.mul_comm]

/-- Zeros alone have no value. -/
theorem decimal_value_zeros (count : Nat) : decimalValue (List.replicate count '0') = 0 := by
  rw [decimal_value_eq, Nat.ofDigitChars_replicate_zero, Nat.mul_zero]

/-- A digit has a value below ten. -/
theorem digit_value_lt {digit : Char} (h : isLatinDigit digit = true) :
    digit.toNat - '0'.toNat < 10 := by
  simp only [isLatinDigit, Bool.and_eq_true, decide_eq_true_eq] at h
  have hle : digit.toNat ≤ '9'.toNat := h.2
  have hnine : '9'.toNat = 57 := rfl
  have hzero : '0'.toNat = 48 := rfl
  omega

/-- As many digits as are given have a value below the power of ten. -/
theorem decimal_value_lt {digits : Text} (h : ∀ digit ∈ digits, isLatinDigit digit = true) :
    decimalValue digits < 10 ^ digits.length := by
  induction digits with
  | nil => exact Nat.one_pos
  | cons digit digits ih =>
      have hdigit := digit_value_lt (h digit (List.mem_cons_self ..))
      have hothers := ih fun other hmem ↦ h other (List.mem_cons_of_mem _ hmem)
      have hsplit := decimal_value_append [digit] digits
      have hsingle : decimalValue [digit] = digit.toNat - '0'.toNat := by
        unfold decimalValue
        simp
      rw [List.singleton_append, hsingle] at hsplit
      rw [hsplit, List.length_cons, Nat.pow_succ]
      have hproduct : (digit.toNat - '0'.toNat + 1) * 10 ^ digits.length ≤
          10 * 10 ^ digits.length := Nat.mul_le_mul_right _ hdigit
      rw [Nat.add_mul] at hproduct
      omega

/-- The number of digits of a number. -/
theorem of_nat_length_le_iff {number count : Nat} (h : 0 < count) :
    (ofNat number).length ≤ count ↔ number < 10 ^ count :=
  Nat.length_toDigits_le_iff (by decide) h

/-- A numeral is not empty. -/
theorem of_nat_length_pos (number : Nat) : 0 < (ofNat number).length :=
  Nat.length_toDigits_pos

/-- The numeral of a positive number does not begin with a zero. -/
theorem of_nat_head {number : Nat} (h : 0 < number) : (ofNat number).head? ≠ some '0' := by
  intro hhead
  obtain ⟨others, hothers⟩ := List.head?_eq_some_iff.mp hhead
  have hdigits : ∀ digit ∈ others, isLatinDigit digit = true := by
    intro digit hmem
    have hnumeral : digit ∈ ofNat number := by
      rw [hothers]
      exact List.mem_cons_of_mem _ hmem
    exact latin_digit_of_mem_of_nat hnumeral
  have hvalue : number = decimalValue others := by
    have hsplit := decimal_value_append ['0'] others
    rw [List.singleton_append, ← hothers, decimal_value_of_nat] at hsplit
    simpa [decimalValue] using hsplit
  have hlt := decimal_value_lt hdigits
  rw [← hvalue] at hlt
  rcases Nat.eq_zero_or_pos others.length with hnone | hsome
  · rw [hnone] at hlt
    omega
  · have hlength := (of_nat_length_le_iff hsome).mpr hlt
    rw [hothers, List.length_cons] at hlength
    omega

/-- Different numbers have different numerals. -/
theorem of_nat_injective {first second : Nat} (h : ofNat first = ofNat second) :
    first = second := by
  rw [← decimal_value_of_nat first, h, decimal_value_of_nat]

/-- A numeral in front of a separator is told from the text behind it. -/
theorem of_nat_append_inj {separator : Char} (hseparator : separator.isDigit = false)
    {first second : Nat} {back other : Text}
    (h : ofNat first ++ separator :: back = ofNat second ++ separator :: other) :
    first = second ∧ back = other := by
  have hspan (number : Nat) (rest : Text) :
      (ofNat number ++ separator :: rest).takeWhile Char.isDigit = ofNat number := by
    rw [List.takeWhile_append_of_pos fun _ ↦ digit_of_mem_of_nat,
      List.takeWhile_cons_of_neg (by simp [hseparator]), List.append_nil]
  have hnumerals : ofNat first = ofNat second := by
    rw [← hspan first back, h, hspan second other]
  rw [hnumerals] at h
  exact ⟨of_nat_injective hnumerals, (List.cons.inj (List.append_cancel_left h)).2⟩

/-- A numeral behind a separator is told from the text in front of it. -/
theorem append_of_nat_inj {separator : Char} (hseparator : separator.isDigit = false)
    {first second : Nat} {front other : Text}
    (h : front ++ separator :: ofNat first = other ++ separator :: ofNat second) :
    front = other ∧ first = second := by
  have hreversed : (ofNat first).reverse ++ separator :: front.reverse =
      (ofNat second).reverse ++ separator :: other.reverse := by
    simpa using congrArg List.reverse h
  have hspan (number : Nat) (rest : Text) :
      ((ofNat number).reverse ++ separator :: rest).takeWhile Char.isDigit =
        (ofNat number).reverse := by
    rw [List.takeWhile_append_of_pos fun _ hmem ↦ digit_of_mem_of_nat (List.mem_reverse.mp hmem),
      List.takeWhile_cons_of_neg (by simp [hseparator]), List.append_nil]
  have hnumerals : (ofNat first).reverse = (ofNat second).reverse := by
    rw [← hspan first front.reverse, hreversed, hspan second other.reverse]
  rw [List.reverse_injective hnumerals] at h
  exact ⟨List.append_cancel_right h, of_nat_injective (List.reverse_injective hnumerals)⟩

end LocalizedSite.Text
