import LocalizedSite.Number.Binary64
import LocalizedSite.Yaml.Moment

/-!
# YAML values

What a YAML document denotes. Each value has a text, in which a configuration may use it where a text
is expected; inside a list or a mapping texts stand between quotes. A mapping finds a value by its key,
where numbers and truth values are compared as numbers. Beside lists and mappings there are sets, lists
of pairs, and mappings that were written as lists.
-/

namespace LocalizedSite.Yaml

/-- A value. -/
inductive Value where
  | null
  | boolean (value : Bool)
  | integer (value : Int)
  | float (value : Binary64)
  | date (value : Date)
  | moment (value : Moment)
  | text (value : Text)
  | bytes (value : List UInt8)
  | sequence (items : List Value)
  | mapping (entries : List (Value × Value))
  /-- An entry of a list of pairs. -/
  | pair (first second : Value)
  | set (items : List Value)
  /-- A mapping that was written as a list. -/
  | listed (entries : List (Value × Value))

namespace Value

/-- The text of a floating-point number. -/
def floatText : Binary64 → Text
  | .nan => "nan".toList
  | .infinity false => "inf".toList
  | .infinity true => "-inf".toList
  | .finite negative significand exponent => Binary64.finiteText negative significand exponent

/-- The text of a date inside a list or a mapping. -/
def shownDate (date : Date) : Text :=
  "datetime.date(".toList ++
    Text.joinWith ", ".toList ([date.year, date.month, date.day].map Text.ofNat) ++ [')']

/-- The parts of the time of a moment that are shown: the last ones are left out if they are
zero. -/
def shownTime (moment : Moment) : List Nat :=
  let parts := [moment.hour, moment.minute]
  if moment.fraction != 0 then parts ++ [moment.second, moment.fraction]
  else if moment.second != 0 then parts ++ [moment.second]
  else parts

/-- The text of a moment inside a list or a mapping. -/
def shownMoment (moment : Moment) : Text :=
  let date := moment.date
  "datetime.datetime(".toList ++
    Text.joinWith ", ".toList
      (([date.year, date.month, date.day] ++ shownTime moment).map Text.ofNat) ++ [')']

/-- The characters written for one byte between quotes. -/
def shownByte (mark : Char) (byte : UInt8) : Text :=
  let code := byte.toNat
  let character := Char.ofNat code
  if character = mark || character = '\\' then ['\\', character]
  else if character = '\n' then "\\n".toList
  else if character = '\r' then "\\r".toList
  else if character = '\t' then "\\t".toList
  else if 0x20 ≤ code && code < 0x7f then [character]
  else "\\x".toList ++ Text.hex 2 code

/-- The text of bytes. -/
def bytesText (bytes : List UInt8) : Text :=
  let mark := Text.quoteMark (bytes.map fun byte ↦ Char.ofNat byte.toNat)
  'b' :: mark :: bytes.flatMap (shownByte mark) ++ [mark]

/-- Texts between brackets, separated by commas. -/
def bracketed (opening closing : Char) (parts : List Text) : Text :=
  opening :: Text.joinWith ", ".toList parts ++ [closing]

/-- The texts of the items of a key that is a list; a single one is followed by a comma. -/
def keyItems : List Text → Text
  | [part] => '(' :: part ++ ",)".toList
  | parts => bracketed '(' ')' parts

mutual

/-- The text of a value inside a list or a mapping. -/
def shown : Value → Text
  | .null => "None".toList
  | .boolean true => "True".toList
  | .boolean false => "False".toList
  | .integer value => Text.ofInt value
  | .float value => floatText value
  | .date value => shownDate value
  | .moment value => shownMoment value
  | .text value => Text.quoted value
  | .bytes value => bytesText value
  | .sequence items => bracketed '[' ']' (shownItems items)
  | .mapping entries => bracketed '\x7b' '\x7d' (shownEntries entries)
  | .pair first second => bracketed '(' ')' [shown first, shown second]
  | .set [] => "set()".toList
  | .set (item :: items) => bracketed '\x7b' '\x7d' (shownKeys (item :: items))
  | .listed entries =>
    "ordereddict(".toList ++
      (if entries.isEmpty then [] else bracketed '[' ']' (shownPairs entries)) ++ [')']

/-- The texts of the items of a list. -/
def shownItems : List Value → List Text
  | [] => []
  | item :: items => shown item :: shownItems items

/-- The texts of keys. -/
def shownKeys : List Value → List Text
  | [] => []
  | .sequence items :: keys => keyItems (shownItems items) :: shownKeys keys
  | key :: keys => shown key :: shownKeys keys

/-- The texts of the entries of a mapping. -/
def shownEntries : List (Value × Value) → List Text
  | [] => []
  | (.sequence items, value) :: entries =>
    (keyItems (shownItems items) ++ ": ".toList ++ shown value) :: shownEntries entries
  | (key, value) :: entries =>
    (shown key ++ ": ".toList ++ shown value) :: shownEntries entries

/-- The texts of the entries of a mapping that was written as a list. -/
def shownPairs : List (Value × Value) → List Text
  | [] => []
  | (key, value) :: entries => bracketed '(' ')' [shown key, shown value] :: shownPairs entries

end

/-- The text of a value. -/
def toText : Value → Text
  | .text value => value
  | .date value => value.text
  | .moment value => value.text
  | value => value.shown

/-- The text of a key. -/
def keyText : Value → Text
  | .sequence items => keyItems (shownItems items)
  | value => value.toText

/-- Whether a value counts as absent: null, false, a zero, and the empty text, list and mapping. -/
def isEmptyValue : Value → Bool
  | .null => true
  | .boolean value => !value
  | .integer value => value == 0
  | .float value => value.isZero
  | .text value => value.isEmpty
  | .bytes value => value.isEmpty
  | .sequence items | .set items => items.isEmpty
  | .mapping entries | .listed entries => entries.isEmpty
  | .date _ | .moment _ | .pair _ _ => false

/-- The fraction that a finite number or a truth value is equal to. -/
def fraction? : Value → Option (Int × Nat)
  | .boolean value => some (if value then 1 else 0, 1)
  | .integer value => some (value, 1)
  | .float (.finite negative significand exponent) =>
    let size := significand * Nat.pow 2 exponent.toNat
    some (if negative then -(size : Int) else size, Nat.pow 2 (-exponent).toNat)
  | _ => none

/-- Whether two values that are no lists are the same key. -/
def sameScalar (first second : Value) : Bool :=
  match first.fraction?, second.fraction? with
  | some (top, bottom), some (top', bottom') => top * bottom' == top' * bottom
  | none, none =>
    match first, second with
    | .null, .null => true
    | .float (.infinity negative), .float (.infinity negative') => negative == negative'
    | .date value, .date value' => value == value'
    | .moment value, .moment value' => value == value'
    | .text value, .text value' => value == value'
    | .bytes value, .bytes value' => value == value'
    | _, _ => false
  | _, _ => false

/-- Whether two keys are the same. -/
def sameKey (first second : Value) : Bool :=
  match first, second with
  | .sequence items, .sequence items' =>
    items.length == items'.length && (items.zip items').all fun (item, item') ↦ sameScalar item item'
  | first, second => sameScalar first second

/-- Set the value of a key, in its place if it is present and at the end otherwise. -/
def putEntry (key value : Value) : List (Value × Value) → List (Value × Value)
  | [] => [(key, value)]
  | (found, old) :: entries =>
    if sameKey found key then (found, value) :: entries
    else (found, old) :: putEntry key value entries

/-- The entries of a mapping. -/
def entries? : Value → Option (List (Value × Value))
  | .mapping entries | .listed entries => some entries
  | _ => none

/-- The items of a list. -/
def items? : Value → Option (List Value)
  | .sequence items => some items
  | _ => none

/-- The characters of a text. -/
def text? : Value → Option Text
  | .text value => some value
  | _ => none

/-- The value of an entry whose key is a text. -/
def find? (entries : List (Value × Value)) (name : Text) : Option Value :=
  (entries.find? fun entry ↦ entry.1.text? == some name).map Prod.snd

/-- The value under a text in a mapping, null if the mapping has none. -/
def field (entries : List (Value × Value)) (name : String) : Value :=
  (find? entries name.toList).getD .null

end Value

end LocalizedSite.Yaml
