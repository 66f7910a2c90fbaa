import LocalizedSite.Entries
import LocalizedSite.Number.Binary64

/-!
# JSON values

A JSON value keeps the order of an object's members, tells integers of any size from binary
floating-point numbers, and admits the three numbers that are not finite.
-/

namespace LocalizedSite

/-- A JSON value. -/
inductive Json where
  | null
  | boolean (value : Bool)
  | integer (value : Int)
  | float (value : Binary64)
  | string (value : Text)
  | array (items : List Json)
  | object (members : List (Text × Json))

namespace Json

/-- The members of an object. -/
def members? : Json → Option (Entries Json)
  | .object members => some members
  | _ => none

/-- The items of an array. -/
def items? : Json → Option (List Json)
  | .array items => some items
  | _ => none

/-- The characters of a string. -/
def string? : Json → Option Text
  | .string value => some value
  | _ => none

/-- The member of an object with a given name. -/
def member? (value : Json) (name : Text) : Option Json :=
  value.members?.bind fun members ↦ Entries.get? members name

/-- Whether a value counts as empty: null, false, a zero, and the empty string, array and object. -/
def isEmptyValue : Json → Bool
  | .null => true
  | .boolean value => !value
  | .integer value => value == 0
  | .float value => value.isZero
  | .string value => value.isEmpty
  | .array items => items.isEmpty
  | .object members => members.isEmpty

end Json

end LocalizedSite
