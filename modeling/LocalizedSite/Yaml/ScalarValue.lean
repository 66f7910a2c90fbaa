import LocalizedSite.Number.DecimalText
import LocalizedSite.Text.LetterCase
import LocalizedSite.Yaml.Base64
import LocalizedSite.Yaml.Value

/-!
# Values of scalars

A scalar without quotes and without a tag denotes what its form says: a truth value, a number, nothing,
a date, a moment, or else a text. Digits may be separated by underscores. A scalar with a tag denotes
what the tag says.
-/

namespace LocalizedSite.Yaml

/-- What the form of a scalar says. -/
inductive ScalarForm where
  | null
  | boolean (value : Bool)
  | integer
  | float
  | moment
  /-- The mark of the mappings that are merged into a mapping. -/
  | merge
  /-- The mark of a default value. -/
  | default
  | text
deriving DecidableEq, Repr

/-- Whether a character is a digit or an underscore. -/
def isDigitOrLine (character : Char) : Bool :=
  Text.isLatinDigit character || character == '_'

/-- Whether a text is not empty and consists of a class of characters. -/
def isRun (allowed : Char → Bool) (text : Text) : Bool :=
  !text.isEmpty && text.all allowed

/-- A text without its underscores. -/
def withoutLines (text : Text) : Text :=
  text.filter (· != '_')

/-- The bases in which an integer may be written, other than ten: what stands before the digits, and
the digits. -/
def bases : List (Text × Nat × List Char) :=
  [("0b".toList, 2, "01".toList), ("0o".toList, 8, "01234567".toList),
   ("0x".toList, 16, "0123456789abcdefABCDEF".toList)]

/-- Whether a text without a sign has the form of an integer. -/
def hasIntegerForm (text : Text) : Bool :=
  isRun isDigitOrLine text || bases.any fun (mark, _, digits) ↦
    (Text.after? mark text).any fun rest ↦
      isRun (fun character ↦ digits.contains character || character == '_') rest

/-- The base of an integer without a sign, and the text behind the mark of the base. -/
def baseOf (text : Text) : Nat × Text :=
  (bases.findSome? fun (mark, base, _) ↦ (Text.after? mark text).map (base, ·)).getD (10, text)

/-- The integer of a text; underscores do not count. -/
def integerValue (text : Text) : Except Fault Value :=
  let text := withoutLines text
  if text.isEmpty then .error .emptyNumber
  else
    let (negative, size) := splitSign text
    let (base, digits) := baseOf size
    match integerOfTextIn? base digits with
    | some value => .ok (.integer (if negative then -value else value))
    | none => .error (.noInteger base digits)

/-- Whether the rest of a number is an exponent or nothing. -/
def isExponent (needsSign : Bool) (text : Text) : Bool :=
  match text with
  | [] => true
  | mark :: rest =>
    let digits := (splitSign rest).2
    (mark == 'e' || mark == 'E') && isRun Text.isLatinDigit digits &&
      (digits.length < rest.length || !needsSign)

/-- Whether a text without a sign has the form of a floating-point number. -/
def hasFloatForm (text : Text) : Bool :=
  let (whole, rest) := text.span isDigitOrLine
  match rest with
  | [] => false
  | '.' :: rest =>
    let (decimals, rest) := rest.span isDigitOrLine
    if whole.isEmpty then !decimals.isEmpty && isExponent true rest
    else whole.head? != some '_' && isExponent false rest
  | rest => !whole.isEmpty && whole.head? != some '_' && isExponent false rest

/-- The names of the infinite numbers. -/
def infinityForms : List Text :=
  [".inf", ".Inf", ".INF"].map String.toList

/-- The names of what is not a number. -/
def nanForms : List Text :=
  [".nan", ".NaN", ".NAN"].map String.toList

/-- The floating-point number of a text in any case; underscores do not count. -/
def floatValue (text : Text) : Except Fault Value :=
  let text := Text.lower (withoutLines text)
  if text.isEmpty then .error .emptyNumber
  else
    let (negative, size) := splitSign text
    if size = ".inf".toList then .ok (.float (.infinity negative))
    else if size = ".nan".toList then .ok (.float .nan)
    else
      match numberOfText? size with
      | some value => .ok (.float (if negative then value.negate else value))
      | none => .error (.noNumber size)

/-- The floating-point number of a text, if it has the form of one. -/
def float? (text : Text) : Option (Except Fault Value) :=
  let size := (splitSign text).2
  if hasFloatForm size || infinityForms.contains size || nanForms.contains text then
    some (floatValue text)
  else none

/-- The integer of a text, if it has the form of one. -/
def integer? (text : Text) : Option (Except Fault Value) :=
  if hasIntegerForm (splitSign text).2 then some (integerValue text) else none

/-- The truth value that a text names, if it does. -/
def boolean? (text : Text) : Option Bool :=
  if (["true", "True", "TRUE"].map String.toList).contains text then some true
  else if (["false", "False", "FALSE"].map String.toList).contains text then some false
  else none

/-- The date or moment of a text, if it has the form of one. -/
def moment? (text : Text) : Option (Except Fault Value) :=
  match readWholeDate text, readMoment text with
  | some date, _ => some (date.check.map .date)
  | none, some moment => some (moment.check.map .moment)
  | none, none => none

/-- The texts that stand for nothing. -/
def nullNames : List Text :=
  ["~", "null", "Null", "NULL", ""].map String.toList

/-- Whether a number may begin with a character. -/
def beginsNumber (character : Char) : Bool :=
  Text.isLatinDigit character || "+-.".toList.contains character

/-- The value that the form of a text says, other than a text: numbers come before dates. -/
def formed? (text : Text) : Option (Except Fault Value) :=
  match boolean? text with
  | some value => some (.ok (.boolean value))
  | none =>
    if nullNames.contains text then some (.ok .null)
    else if text.head?.any beginsNumber then (float? text).or ((integer? text).or (moment? text))
    else none

/-- The mark of the mappings that are merged into a mapping. -/
def mergeMark : Text := "<<".toList

/-- The mark of a default value, which has a meaning only as a key. -/
def defaultMark : Text := "=".toList

/-- The value of a scalar whose form tells what it is. -/
def plainValue (text : Text) : Except Fault Value :=
  match formed? text with
  | some value => value
  | none =>
    if text = mergeMark ∨ text = defaultMark then .error .unknownTag else .ok (.text text)

/-- The beginning of the tags that are known. -/
def tagBase : Text := "tag:yaml.org,2002:".toList

/-- The truth values that a text with a tag may name. -/
def truthNames : List (Text × Bool) :=
  [("true", true), ("false", false), ("yes", true), ("no", false), ("y", true), ("n", false),
    ("on", true), ("off", false)].map fun (name, value) ↦ (String.toList name, value)

/-- The truth value of a text in any case. -/
def truthValue (text : Text) : Except Fault Value :=
  let name := Text.lower text
  match truthNames.lookup name with
  | some value => .ok (.boolean value)
  | none => .error (.noTruth name)

/-- The date or moment of a text; the month and the day may have one digit. -/
def timestampValue (text : Text) : Except Fault Value :=
  match readDate 1 text, readMoment text with
  | some (date, []), _ => date.check.map .date
  | _, some moment => moment.check.map .moment
  | _, none => .error .unknownTag

/-- The bytes that a text encodes. -/
def binaryValue (text : Text) : Except Fault Value :=
  match Base64.decode? text with
  | some bytes => .ok (.bytes bytes)
  | none => .error .unknownTag

/-- The value of a scalar with a known tag. -/
def taggedValue (name : String) (text : Text) : Except Fault Value :=
  match name with
  | "str" => .ok (.text text)
  | "null" => .ok .null
  | "int" => integerValue text
  | "float" => floatValue text
  | "bool" => truthValue text
  | "timestamp" => timestampValue text
  | "binary" => binaryValue text
  | _ => .error .unknownTag

/-- The value of a scalar with a tag. -/
def tagValue (tag text : Text) : Except Fault Value :=
  match Text.after? tagBase tag with
  | some name => taggedValue (String.ofList name) text
  | none => .error .unknownTag

end LocalizedSite.Yaml
