import LocalizedSite.Number.Binary64
import LocalizedSite.Text.Blank
import LocalizedSite.Text.DecimalDigit

/-!
# Decimal numbers as people write them

A decimal number may have blanks around it, a sign in front, a point among its digits, and an exponent
behind them. The infinite numbers and what is not a number have names.
-/

namespace LocalizedSite

/-- A text without its sign, and whether the sign was a minus. -/
def splitSign : Text → Bool × Text
  | '-' :: rest => (true, rest)
  | '+' :: rest => (false, rest)
  | text => (false, text)

/-- The exponent that a text says, zero if there is no text. -/
def exponentOfText? (text : Text) : Option Int :=
  match text with
  | [] => some 0
  | mark :: rest =>
    let (negative, digits) := splitSign rest
    if (mark = 'e' ∨ mark = 'E') ∧ !digits.isEmpty ∧ digits.all Text.isLatinDigit then
      let size : Int := Text.decimalValue digits
      some (if negative then -size else size)
    else none

/-- The decimal number that a text without blanks and sign stands for. -/
def decimalOfText? (negative : Bool) (text : Text) : Option Decimal := do
  let (whole, rest) := text.span Text.isLatinDigit
  let (decimals, rest) :=
    match rest with
    | '.' :: rest => rest.span Text.isLatinDigit
    | rest => ([], rest)
  let exponent ← exponentOfText? rest
  let digits := whole ++ decimals
  if digits.isEmpty then none
  else some ⟨negative, Text.decimalValue digits, exponent - decimals.length⟩

/-- The names of the infinite numbers. -/
def infinityNames : List Text :=
  ["inf".toList, "infinity".toList]

/-- The number that a text stands for. -/
def numberOfText? (text : Text) : Option Binary64 :=
  let (negative, size) := splitSign (Text.trim text)
  if infinityNames.contains size then some (.infinity negative)
  else if size = "nan".toList then some .nan
  else (decimalOfText? negative size).map Binary64.ofDecimal

end LocalizedSite
