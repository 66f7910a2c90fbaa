import LocalizedSite.Config.Basic
import LocalizedSite.Config.Fault
import LocalizedSite.Yaml.Value

/-!
# Settings

How the value of a setting is understood. Nearly every value has a text and may stand where a text is
expected; a list of texts may be given as one text of words; an empty value counts as absent.
-/

namespace LocalizedSite.Config

open Yaml

/-- A group of settings. -/
abbrev Group := List (Value × Value)

/-- The group that a value is: an empty value is a group without settings. -/
def groupOf (value : Value) : Except ConfigFault Group :=
  if value.isEmptyValue then .ok []
  else
    match value.entries? with
    | some entries => .ok entries
    | none => .error .groupNotMapping

/-- The text of a setting, with a default if it is not given at all. -/
def textOr (group : Group) (name : String) (default : Text) : Text :=
  match Value.find? group name.toList with
  | some value => value.toText
  | none => default

/-- The text of a value without the blanks around it, if anything is left of it. -/
def optionalText (value : Value) : Option Text :=
  match value with
  | .null => none
  | value =>
    let text := Text.trim value.toText
    if text.isEmpty then none else some text

/-- The texts of a value: the words of a text, or the items of a list without the blanks around
them. -/
def textList (value : Value) : List Text :=
  match value with
  | .text text => Text.words text
  | .sequence items =>
    (items.map fun item ↦ Text.trim item.toText).filter fun text ↦ !text.isEmpty
  | _ => []

/-- The labels of a setting of extraction with their keys. -/
def labels (name : String) (value : Value) : Except ConfigFault (Entries Text) :=
  match value, value.entries? with
  | .null, _ => .ok []
  | _, some entries =>
    .ok (.ofList (entries.map fun (label, key) ↦ (label.keyText, key.toText)))
  | _, none => .error (.setting (.labelsNotMapping name.toList))

/-- The directory of a setting, below the directory of the configuration unless it is absolute. -/
def directory (root : FilePath) (value : Value) (default : String) : FilePath :=
  root.joinText (if value.isEmptyValue then default.toList else value.toText)

/-- The integer that a text stands for; the fault shows it in another form. -/
def integerOfShown (text shown : Text) : Except IntegerFault Int :=
  match integerOfText? text with
  | some integer => .ok integer
  | none => .error (.noInteger shown)

/-- The integer of a value: a number is cut at its point, and a truth value counts as a number. -/
def integerOf (value : Value) : Except IntegerFault Int :=
  match value with
  | .integer value => .ok value
  | .boolean value => .ok (if value then 1 else 0)
  | .float (.infinity _) => .error .infinite
  | .float value =>
    match value.truncate? with
    | some integer => .ok integer
    | none => .error .undefined
  | .text text => integerOfShown text (Text.quoted text)
  | .bytes bytes =>
    integerOfShown (bytes.map fun byte ↦ Char.ofNat byte.toNat) (Value.bytesText bytes)
  | _ => .error .noNumber

/-- A text without the slashes at its beginning. -/
def withoutSlashes (text : Text) : Text :=
  Text.trimStartWhere (· == '/') text

/-- The path prefix that a value stands for: empty, or ending in one slash. -/
def pathPrefix (value : Value) : Text :=
  let text := Text.trimWhere (· == '/') ((optionalText value).getD [])
  if text.isEmpty then [] else text ++ ['/']

end LocalizedSite.Config
