import LocalizedSite.Text.Blank
import LocalizedSite.Text.DecimalDigit
import LocalizedSite.Text.Quoted

/-!
# Integers as people write them

An integer may have blanks around it, a sign in front, digits of any script, and single underscores
between its digits. In a base above ten the Latin letters are the further digits.
-/

namespace LocalizedSite

/-- The value of a digit of any script, or of a Latin letter as the digit of a large base. -/
def digitValue? (character : Char) : Option Nat :=
  if 'a' ≤ character ∧ character ≤ 'z' then some (character.toNat - 'a'.toNat + 10)
  else if 'A' ≤ character ∧ character ≤ 'Z' then some (character.toNat - 'A'.toNat + 10)
  else Text.decimalDigitValue? character

/-- Read digits of a base between which single underscores may stand, after the value of those read
so far and whether the last character was a digit. -/
def integerDigitsFrom (base value : Nat) (afterDigit : Bool) : Text → Option Nat
  | [] => if afterDigit then some value else none
  | character :: rest =>
    match (digitValue? character).filter (· < base) with
    | some digit => integerDigitsFrom base (base * value + digit) true rest
    | none =>
      if character = '_' ∧ afterDigit then integerDigitsFrom base value false rest else none

/-- The integer of a base that a text stands for. -/
def integerOfTextIn? (base : Nat) (text : Text) : Option Int :=
  match Text.trim text with
  | '-' :: digits => (integerDigitsFrom base 0 false digits).map fun size ↦ -(size : Int)
  | '+' :: digits => (integerDigitsFrom base 0 false digits).map Int.ofNat
  | digits => (integerDigitsFrom base 0 false digits).map Int.ofNat

/-- The integer that a text stands for. -/
def integerOfText? (text : Text) : Option Int :=
  integerOfTextIn? 10 text

/-- The greatest number of characters of a text that a message shows. -/
def shownTextLength : Nat := 200

/-- The wording of a text that is no integer in a base; the text comes as it is shown. -/
def noIntegerMessage (base : Nat) (shown : Text) : Text :=
  "invalid literal for int() with base ".toList ++ Text.ofNat base ++ ": ".toList ++
    shown.take shownTextLength

end LocalizedSite
