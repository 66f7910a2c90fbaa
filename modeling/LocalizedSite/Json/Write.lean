import LocalizedSite.Json.Basic

/-!
# Writing JSON

A value is written over several lines, each level indented by a fixed number of spaces, with every
character as it is except for the quote, the backslash and the control characters. An empty array
or object has no line of its own.
-/

namespace LocalizedSite.Json

/-- The characters written for one character of a string literal. -/
def escapeCharacter (character : Char) : Text :=
  if character = '"' then "\\\"".toList
  else if character = '\\' then "\\\\".toList
  else if character = '\n' then "\\n".toList
  else if character = '\r' then "\\r".toList
  else if character = '\t' then "\\t".toList
  else if character = '\x0c' then "\\f".toList
  else if character = '\x08' then "\\b".toList
  else if character.toNat < 32 then "\\u".toList ++ Text.hex 4 character.toNat
  else [character]

/-- The characters between the quotes of a string literal. -/
def escape (text : Text) : Text :=
  text.flatMap escapeCharacter

/-- A string literal. -/
def quote (text : Text) : Text :=
  '"' :: escape text ++ ['"']

/-- The text of a floating-point number. -/
def floatText : Binary64 → Text
  | .nan => "NaN".toList
  | .infinity false => "Infinity".toList
  | .infinity true => "-Infinity".toList
  | .finite negative significand exponent => Binary64.finiteText negative significand exponent

/-- A line break followed by the indentation of a level. -/
def newLine (width : Nat) : Text :=
  '\n' :: List.replicate width ' '

/-- Parts between brackets, each on a line of its own one level further in. -/
def block (opening closing : Char) (indent width : Nat) (parts : List Text) : Text :=
  if parts.isEmpty then [opening, closing]
  else
    opening :: newLine (width + indent) ++
      Text.joinWith (',' :: newLine (width + indent)) parts ++ newLine width ++ [closing]

mutual

/-- The text of a value whose lines are indented by `width`, each level by `indent` more. -/
def renderAt (indent width : Nat) : Json → Text
  | .null => "null".toList
  | .boolean true => "true".toList
  | .boolean false => "false".toList
  | .integer value => Text.ofInt value
  | .float value => floatText value
  | .string value => quote value
  | .array items => block '[' ']' indent width (renderItems indent (width + indent) items)
  | .object members =>
    block '\x7b' '\x7d' indent width (renderMembers indent (width + indent) members)

/-- The texts of the items of an array. -/
def renderItems (indent width : Nat) : List Json → List Text
  | [] => []
  | item :: items => renderAt indent width item :: renderItems indent width items

/-- The texts of the members of an object. -/
def renderMembers (indent width : Nat) : List (Text × Json) → List Text
  | [] => []
  | (name, value) :: members =>
    (quote name ++ ": ".toList ++ renderAt indent width value) ::
      renderMembers indent width members

end

/-- The text of a value, each level indented by `indent` spaces. -/
def render (indent : Nat) (value : Json) : Text :=
  renderAt indent 0 value

/-- The text of a value as it stands in a dictionary file, without the final line break. -/
def dump (value : Json) : Text :=
  render 2 value

end LocalizedSite.Json
