import LocalizedSite.Json.Basic

/-!
# Faults in JSON text

A fault has a cause and a place. The place is counted in characters from zero, and shown also as a
line and a column, both counted from one.
-/

namespace LocalizedSite.Json

/-- Why a text is not JSON. -/
inductive Cause where
  | valueExpected
  | nameExpected
  | colonExpected
  | commaExpected
  | extraData
  | unterminatedString
  | controlCharacter
  | invalidEscape
  | invalidUnicodeEscape
  | byteOrderMark
deriving DecidableEq, Repr

/-- The wording of a cause. -/
def Cause.message : Cause → Text
  | .valueExpected => "Expecting value".toList
  | .nameExpected => "Expecting property name enclosed in double quotes".toList
  | .colonExpected => "Expecting ':' delimiter".toList
  | .commaExpected => "Expecting ',' delimiter".toList
  | .extraData => "Extra data".toList
  | .unterminatedString => "Unterminated string starting at".toList
  | .controlCharacter => "Invalid control character at".toList
  | .invalidEscape => "Invalid \\escape".toList
  | .invalidUnicodeEscape => "Invalid \\uXXXX escape".toList
  | .byteOrderMark => "Unexpected UTF-8 BOM (decode using utf-8-sig)".toList

/-- A fault at a place of a text. -/
structure Fault where
  /-- What is wrong. -/
  cause : Cause
  /-- The line of the place, from one. -/
  line : Nat
  /-- The column of the place, from one. -/
  column : Nat
  /-- The number of characters before the place. -/
  offset : Nat
deriving DecidableEq, Repr

/-- The fault whose place is after the first `offset` characters of a text. -/
def Fault.at (cause : Cause) (text : Text) (offset : Nat) : Fault :=
  let before := text.take offset
  { cause
    line := before.count '\n' + 1
    column := (before.reverse.takeWhile (· != '\n')).length + 1
    offset }

/-- The wording of a fault with its place. -/
def Fault.message (fault : Fault) : Text :=
  fault.cause.message ++ ": line ".toList ++ Text.ofNat fault.line ++ " column ".toList ++
    Text.ofNat fault.column ++ " (char ".toList ++ Text.ofNat fault.offset ++ ")".toList

end LocalizedSite.Json
