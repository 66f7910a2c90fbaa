import LocalizedSite.Text.Basic

/-!
# Binary floating-point numbers

A finite number of the binary64 format is a significand below `2 ^ 53` times a power of two, the
exponent being at least `-1074`. A decimal is read as the nearest such number, ties going to the
even significand. It is written with the fewest digits that read back as the same number, so that
writing and reading cancel.
-/

namespace LocalizedSite

/-- A decimal number: a signed integer of digits times a power of ten. -/
structure Decimal where
  /-- Whether a minus sign stands before the digits. -/
  negative : Bool
  /-- The digits, read as one integer. -/
  digits : Nat
  /-- The power of ten. -/
  exponent : Int
deriving DecidableEq, Repr

/-- A number of the binary64 format; zeros are signed. -/
inductive Binary64 where
  | nan
  | infinity (negative : Bool)
  | finite (negative : Bool) (significand : Nat) (exponent : Int)
deriving DecidableEq, Repr

namespace Binary64

/-- The least exponent of a finite number. -/
def leastExponent : Int := -1074

/-- The greatest exponent of a finite number. -/
def greatestExponent : Int := 971

/-- A fraction divided by a power of two, again as a fraction. -/
def scaleDown (numerator denominator : Nat) (exponent : Int) : Nat × Nat :=
  if 0 ≤ exponent then (numerator, denominator * Nat.pow 2 exponent.toNat)
  else (numerator * Nat.pow 2 (-exponent).toNat, denominator)

/-- The integer nearest to a fraction, a tie going to the even one. -/
def roundHalfEven (numerator denominator : Nat) : Nat :=
  let quotient := numerator / denominator
  let twice := 2 * (numerator % denominator)
  if twice < denominator ∨ (twice = denominator ∧ quotient % 2 = 0) then quotient
  else quotient + 1

/-- The exponent at which a positive fraction has a significand of 53 bits, or the least one. -/
def exponentOf (numerator denominator : Nat) : Int :=
  let estimate := max ((numerator.log2 : Int) - denominator.log2 - 53) leastExponent
  let (top, bottom) := scaleDown numerator denominator estimate
  if top / bottom < Nat.pow 2 53 then estimate else estimate + 1

/-- The number nearest to a fraction with a positive denominator. -/
def nearest (negative : Bool) (numerator denominator : Nat) : Binary64 :=
  if numerator = 0 then .finite negative 0 leastExponent
  else
    let exponent := exponentOf numerator denominator
    let (top, bottom) := scaleDown numerator denominator exponent
    let rounded := roundHalfEven top bottom
    let (significand, exponent) :=
      if rounded = Nat.pow 2 53 then (Nat.pow 2 52, exponent + 1) else (rounded, exponent)
    if greatestExponent < exponent then .infinity negative
    else .finite negative significand exponent

/-- The number nearest to a decimal. Powers of ten far outside of the format's range are not
computed. -/
def ofDecimal (decimal : Decimal) : Binary64 :=
  let magnitude := decimal.exponent + (Text.ofNat decimal.digits).length
  if decimal.digits = 0 ∨ magnitude < -400 then .finite decimal.negative 0 leastExponent
  else if 400 < magnitude then .infinity decimal.negative
  else if 0 ≤ decimal.exponent then
    nearest decimal.negative (decimal.digits * Nat.pow 10 decimal.exponent.toNat) 1
  else nearest decimal.negative decimal.digits (Nat.pow 10 (-decimal.exponent).toNat)

/-- The place of the decimal point of a positive fraction: the least power of ten above it. -/
def pointPlace (numerator denominator : Nat) : Int :=
  if denominator ≤ numerator then (Text.ofNat (numerator / denominator)).length
  else
    let ratio := (denominator + numerator - 1) / numerator
    let length := (Text.ofNat ratio).length
    if ratio = Nat.pow 10 (length - 1) then 2 - length else 1 - length

/-- The decimal with `count` digits before `10 ^ exponent` that lies nearest to a fraction, among
the two neighbours that `accepts` lets pass. -/
def neighbour? (accepts : Nat → Bool) (numerator denominator : Nat) (exponent : Int) :
    Option Nat :=
  let (top, bottom) :=
    if 0 ≤ exponent then (numerator, denominator * Nat.pow 10 exponent.toNat)
    else (numerator * Nat.pow 10 (-exponent).toNat, denominator)
  let below := top / bottom
  let lowerFits := accepts below
  let upperFits := accepts (below + 1)
  if lowerFits && upperFits then some (roundHalfEven top bottom)
  else if lowerFits then some below
  else if upperFits then some (below + 1)
  else none

/-- Try digit counts upwards from `count`, at most `tries` of them. -/
def shortestFrom (accepts : Int → Nat → Bool) (numerator denominator : Nat) (place : Int) :
    Nat → Nat → Option (Nat × Int)
  | 0, _ => none
  | tries + 1, count =>
    let exponent := place - count
    match neighbour? (accepts exponent) numerator denominator exponent with
    | some digits => some (digits, exponent)
    | none => shortestFrom accepts numerator denominator place tries (count + 1)

/-- The decimal with the fewest digits that reads back as a finite number; seventeen digits always
do. -/
def shortest (negative : Bool) (significand : Nat) (exponent : Int) : Decimal :=
  let (numerator, denominator) :=
    if 0 ≤ exponent then (significand * Nat.pow 2 exponent.toNat, 1)
    else (significand, Nat.pow 2 (-exponent).toNat)
  let accepts := fun power digits ↦
    ofDecimal ⟨negative, digits, power⟩ = .finite negative significand exponent
  match shortestFrom (fun power digits ↦ accepts power digits) numerator denominator
      (pointPlace numerator denominator) 17 1 with
  | some (digits, power) => ⟨negative, digits, power⟩
  | none => ⟨negative, numerator * Nat.pow 5 (-exponent).toNat, min exponent 0⟩

/-- The text of a nonzero decimal: positional when its point lies at most sixteen places to the
right of the first digit and less than four to the left of it, with an exponent of at least two
digits otherwise. -/
def layout (decimal : Decimal) : Text :=
  let all := Text.ofNat decimal.digits
  let digits := Text.trimEndWhere (· == '0') all
  let place := decimal.exponent + all.length
  let body :=
    if -4 < place ∧ place ≤ 16 then
      if place ≤ 0 then
        "0.".toList ++ List.replicate (-place).toNat '0' ++ digits
      else if (digits.length : Int) ≤ place then
        digits ++ List.replicate (place - digits.length).toNat '0' ++ ".0".toList
      else digits.take place.toNat ++ '.' :: digits.drop place.toNat
    else
      let fraction := digits.drop 1
      let power := place - 1
      let count := Text.ofNat power.natAbs
      digits.take 1 ++ (if fraction.isEmpty then [] else '.' :: fraction) ++
        ['e', if power < 0 then '-' else '+'] ++
        List.replicate (2 - count.length) '0' ++ count
  if decimal.negative then '-' :: body else body

/-- The text of a finite number. -/
def finiteText (negative : Bool) (significand : Nat) (exponent : Int) : Text :=
  if significand = 0 then (if negative then "-0.0" else "0.0").toList
  else layout (shortest negative significand exponent)

/-- The integer part of a finite number, towards zero. -/
def truncate? : Binary64 → Option Int
  | .finite negative significand exponent =>
    let size := significand * Nat.pow 2 exponent.toNat / Nat.pow 2 (-exponent).toNat
    some (if negative then -(size : Int) else size)
  | _ => none

/-- The number with the other sign. -/
def negate : Binary64 → Binary64
  | .nan => .nan
  | .infinity negative => .infinity !negative
  | .finite negative significand exponent => .finite (!negative) significand exponent

/-- Whether a number is a zero. -/
def isZero : Binary64 → Bool
  | .finite _ significand _ => significand == 0
  | _ => false

end Binary64

end LocalizedSite
