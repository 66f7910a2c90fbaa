import LocalizedSite.Text.DecimalDigit
import LocalizedSite.Yaml.Fault

/-!
# Dates and times

A date, and a moment of a date with a time of day. Both must exist in the calendar. The readers accept
a date of four, two and two digits, and a date with a time behind it.
-/

namespace LocalizedSite.Yaml

/-- A date. -/
structure Date where
  /-- The year. -/
  year : Nat
  /-- The month, from one. -/
  month : Nat
  /-- The day of the month, from one. -/
  day : Nat
deriving DecidableEq, Repr

/-- A date with a time of day. -/
structure Moment where
  /-- The date. -/
  date : Date
  /-- The hour. -/
  hour : Nat
  /-- The minute. -/
  minute : Nat
  /-- The second. -/
  second : Nat
  /-- The millionths of a second. -/
  fraction : Nat
  /-- The minutes by which the clock is ahead of universal time, if they are known. -/
  offset : Option Int
deriving DecidableEq, Repr

/-- The decimal digits of a number, padded with zeros to a width. -/
def padded (width number : Nat) : Text :=
  let digits := Text.ofNat number
  List.replicate (width - digits.length) '0' ++ digits

namespace Date

/-- Whether a year has a leap day. -/
def isLeapYear (year : Nat) : Bool :=
  year % 4 == 0 && (year % 100 != 0 || year % 400 == 0)

/-- The number of days in a month. -/
def daysIn (year month : Nat) : Nat :=
  if month = 2 then (if isLeapYear year then 29 else 28)
  else if [4, 6, 9, 11].contains month then 30
  else 31

/-- The date, if it exists. -/
def check (date : Date) : Except Fault Date :=
  if date.year = 0 then .error (.outOfRange (.year date.year))
  else if date.month = 0 ∨ 12 < date.month then .error (.outOfRange .month)
  else if date.day = 0 ∨ daysIn date.year date.month < date.day then .error (.outOfRange .day)
  else .ok date

/-- The text of a date. -/
def text (date : Date) : Text :=
  padded 4 date.year ++ '-' :: padded 2 date.month ++ '-' :: padded 2 date.day

end Date

namespace Moment

/-- The moment, if it exists. -/
def check (moment : Moment) : Except Fault Moment := do
  let _ ← moment.date.check
  if 23 < moment.hour then .error (.outOfRange .hour)
  else if 59 < moment.minute then .error (.outOfRange .minute)
  else if 59 < moment.second then .error (.outOfRange .second)
  else .ok moment

/-- The text of an offset from universal time. -/
def offsetText (offset : Int) : Text :=
  (if offset < 0 then '-' else '+') :: padded 2 (offset.natAbs / 60) ++
    ':' :: padded 2 (offset.natAbs % 60)

/-- The text of a moment. -/
def text (moment : Moment) : Text :=
  moment.date.text ++ ' ' :: padded 2 moment.hour ++ ':' :: padded 2 moment.minute ++
    ':' :: padded 2 moment.second ++
    (if moment.fraction = 0 then [] else '.' :: padded 6 moment.fraction) ++
    (moment.offset.map offsetText).getD []

end Moment

/-- Read at least `least` and at most `most` digits as a number. -/
def readDigits (least most : Nat) (text : Text) : Option (Nat × Text) :=
  let digits := (text.takeWhile Text.isLatinDigit).take most
  if digits.length < least then none
  else some (Text.decimalValue digits, text.drop digits.length)

/-- Read the three numbers of a date. -/
def readDate (least : Nat) (text : Text) : Option (Date × Text) := do
  let (year, text) ← readDigits 4 4 text
  let text ← Text.after? ['-'] text
  let (month, text) ← readDigits least 2 text
  let text ← Text.after? ['-'] text
  let (day, text) ← readDigits least 2 text
  return (⟨year, month, day⟩, text)

/-- Read what stands between a date and a time. -/
def readTimeMark (text : Text) : Option Text :=
  match text with
  | 'T' :: rest | 't' :: rest => some rest
  | _ =>
    let isSpace := fun character ↦ character == ' ' || character == '\t'
    if text.head?.any isSpace then some (text.dropWhile isSpace) else none

/-- Read the decimals of a second as millionths, rounding a half up; a second that becomes whole
thereby counts as none. -/
def readFraction (text : Text) : Nat × Text :=
  match text with
  | '.' :: rest =>
    let digits := rest.takeWhile Text.isLatinDigit
    let shown := digits.take 6
    let whole := Text.decimalValue (shown ++ List.replicate (6 - shown.length) '0')
    let next := (digits[6]?.map fun digit ↦ digit.toNat - '0'.toNat).getD 0
    let rounded := if 5 ≤ next then whole + 1 else whole
    (if rounded = 1000000 then 0 else rounded, rest.drop digits.length)
  | _ => (0, text)

/-- Read the offset from universal time, if there is one, up to the end. -/
def readOffset (text : Text) : Option (Option Int) :=
  let text := text.dropWhile fun character ↦ character == ' ' || character == '\t'
  match text with
  | ['Z'] => some (some 0)
  | sign :: rest =>
    if sign = '+' ∨ sign = '-' then do
      let (hours, rest) ← readDigits 1 2 rest
      let minutes ←
        match rest with
        | [] => some 0
        | ':' :: rest =>
          match readDigits 2 2 rest with
          | some (minutes, []) => some minutes
          | _ => none
        | _ => none
      let size : Int := 60 * hours + minutes
      return some (if sign = '-' then -size else size)
    else none
  | [] => none

/-- Read the time of a moment up to the end. -/
def readTime (date : Date) (text : Text) : Option Moment := do
  let text ← readTimeMark text
  let (hour, text) ← readDigits 1 2 text
  let text ← Text.after? [':'] text
  let (minute, text) ← readDigits 2 2 text
  let text ← Text.after? [':'] text
  let (second, text) ← readDigits 2 2 text
  let (fraction, text) := readFraction text
  let offset ← if text.isEmpty then some none else readOffset text
  return ⟨date, hour, minute, second, fraction, offset⟩

/-- The date that a text of full width stands for, whether it exists or not. -/
def readWholeDate (text : Text) : Option Date :=
  match readDate 2 text with
  | some (date, []) => some date
  | _ => none

/-- The moment that a text stands for, whether it exists or not. -/
def readMoment (text : Text) : Option Moment := do
  let (date, rest) ← readDate 1 text
  readTime date rest

end LocalizedSite.Yaml
