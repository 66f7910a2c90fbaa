import LocalizedSite.Yaml.Block

/-!
# Tokens

The tokens of a YAML text, and the readers for those that stand for a property of a node or for a
directive: anchors, aliases, tags, and the two known directives.
-/

namespace LocalizedSite.Yaml

/-- A directive. -/
inductive Directive where
  /-- The version of the format. -/
  | version (major minor : Nat)
  /-- A handle for tags and what it stands for. -/
  | handle (name meaning : Text)
  /-- A directive that has no meaning here. -/
  | other
deriving DecidableEq, Repr

/-- A tag as it is written. -/
structure TagName where
  /-- The handle, if the tag has one. -/
  handle : Option Text
  /-- What follows the handle. -/
  suffix : Text
deriving DecidableEq, Repr

/-- A token. -/
inductive Token where
  | directive (directive : Directive)
  | documentStart
  | documentEnd
  | blockSequenceStart
  | blockMappingStart
  | blockEnd
  | flowSequenceStart
  | flowSequenceEnd
  | flowMappingStart
  | flowMappingEnd
  | blockEntry
  | flowEntry
  | key
  | value
  | alias (name : Text)
  | anchor (name : Text)
  | tag (name : TagName)
  | scalar (text : Text) (isPlain : Bool)
deriving DecidableEq, Repr

/-- Whether a character may stand in the name of an anchor. -/
def isAnchorCharacter (character : Char) : Bool :=
  let code := character.toNat
  !(",[]\x7b\x7d".toList.contains character) && character != byteOrderMark &&
    ((0x21 ≤ code && code ≤ 0x7e) || 0xa0 ≤ code)

/-- Read the name of an anchor or an alias from behind its indicator. -/
def anchorName (cursor : Cursor) : Except Fault (Text × Cursor) :=
  let (name, cursor) := cursor.takeWhile isAnchorCharacter
  let mayFollow := isGap cursor.head? || cursor.head?.any ",[]\x7b\x7d".toList.contains
  if name.isEmpty || !mayFollow then .error .malformedAnchor else .ok (name, cursor)

/-- Whether a character is a letter or a digit of the basic Latin block or in a list. -/
def isNameCharacter (others : String) (character : Char) : Bool :=
  Text.isLatinLetter character || Text.isLatinDigit character || others.toList.contains character

/-- Whether a character may stand in a tag. -/
def isTagCharacter (character : Char) : Bool :=
  isNameCharacter "-;/?:@&=+$,_.!~*'()[]#" character

/-- Read bytes that are written as percent signs with two hexadecimal digits. -/
def percentBytes (bytes : List UInt8) : Nat → Cursor → Except Fault (List UInt8 × Cursor)
  | 0, cursor => .ok (bytes.reverse, cursor)
  | fuel + 1, cursor =>
    if cursor.head? = some '%' then
      let digits := cursor.step.rest.take 2
      if digits.length = 2 ∧ digits.all Text.isHexDigit then
        percentBytes (UInt8.ofNat (Text.hexValue digits) :: bytes) fuel (cursor.advance 3)
      else .error .malformedTag
    else .ok (bytes.reverse, cursor)

/-- Read the characters of a tag, after those read so far. -/
def tagCharactersFrom (read : Text) : Nat → Cursor → Except Fault (Text × Cursor)
  | 0, cursor => .ok (read, cursor)
  | fuel + 1, cursor =>
    let (run, cursor) := cursor.takeWhile isTagCharacter
    if cursor.head? = some '%' then do
      let (bytes, cursor) ← percentBytes [] cursor.rest.length cursor
      match String.fromUTF8? ⟨bytes.toArray⟩ with
      | some decoded => tagCharactersFrom (read ++ run ++ decoded.toList) fuel cursor
      | none => .error .malformedTag
    else .ok (read ++ run, cursor)

/-- Read the characters of a tag; there must be some. -/
def tagCharacters (cursor : Cursor) : Except Fault (Text × Cursor) := do
  let (text, cursor) ← tagCharactersFrom [] (cursor.rest.length + 1) cursor
  if text.isEmpty then throw .malformedTag
  return (text, cursor)

/-- Read a handle: one exclamation mark, or a name between two of them. -/
def tagHandle (cursor : Cursor) : Except Fault (Text × Cursor) :=
  if cursor.head? != some '!' then .error .malformedTag
  else if cursor.at? 1 = some ' ' then .ok (['!'], cursor.step)
  else
    let (name, cursor) := cursor.step.takeWhile (isNameCharacter "-_")
    if cursor.head? = some '!' then .ok ('!' :: name ++ ['!'], cursor.step)
    else .error .malformedTag

/-- Whether a place ends a tag or a directive: a space, a line break, or the end. -/
def endsDirective (cursor : Cursor) : Bool :=
  isBreakOrEnd cursor.head? || cursor.head? == some ' '

/-- Whether a handle stands at the beginning of a tag: a second exclamation mark comes before its
end. -/
def hasHandle (cursor : Cursor) : Bool :=
  let word := cursor.step.rest.takeWhile fun character ↦ !(isBreak character || character == ' ')
  word.contains '!'

/-- Read a tag without checking what follows it. -/
def tagBody (cursor : Cursor) : Except Fault (TagName × Cursor) := do
  match cursor.at? 1 with
  | some '<' =>
    let (suffix, cursor) ← tagCharacters (cursor.advance 2)
    if cursor.head? != some '>' then throw .malformedTag
    return (⟨none, suffix⟩, cursor.step)
  | next =>
    if isGap next then return (⟨none, ['!']⟩, cursor.step)
    let (handle, cursor) ← if hasHandle cursor then tagHandle cursor else pure (['!'], cursor.step)
    let (suffix, cursor) ← tagCharacters cursor
    return (⟨some handle, suffix⟩, cursor)

/-- Read a tag. -/
def tagName (cursor : Cursor) : Except Fault (TagName × Cursor) := do
  let (name, cursor) ← tagBody cursor
  if endsDirective cursor then return (name, cursor) else throw .malformedTag

/-- Read a number of a version. -/
def versionNumber (cursor : Cursor) : Except Fault (Nat × Cursor) :=
  let (digits, cursor) := cursor.takeWhile Text.isLatinDigit
  if digits.isEmpty then .error .malformedDirective
  else .ok (Text.decimalValue digits, cursor)

/-- Read the value of a version directive. -/
def versionValue (cursor : Cursor) : Except Fault (Directive × Cursor) := do
  let (major, cursor) ← versionNumber (cursor.skipWhile (· == ' '))
  if cursor.head? != some '.' then throw .malformedDirective
  let (minor, cursor) ← versionNumber cursor.step
  if !endsDirective cursor then throw .malformedDirective
  return (.version major minor, cursor)

/-- Read the value of a directive that declares a handle. -/
def handleValue (cursor : Cursor) : Except Fault (Directive × Cursor) := do
  let (name, cursor) ← tagHandle (cursor.skipWhile (· == ' '))
  if cursor.head? != some ' ' then throw .malformedDirective
  let (meaning, cursor) ← tagCharacters (cursor.skipWhile (· == ' '))
  if !endsDirective cursor then throw .malformedDirective
  return (.handle name meaning, cursor)

/-- Read a directive with the rest of its line. -/
def directiveLine (cursor : Cursor) : Except Fault (Directive × Cursor) := do
  let (name, cursor) := cursor.step.takeWhile (isNameCharacter "-_:.")
  if name.isEmpty || !endsDirective cursor then throw .malformedDirective
  let (directive, cursor) ←
    if name = "YAML".toList then versionValue cursor
    else if name = "TAG".toList then handleValue cursor
    else pure (.other, cursor.skipWhile fun character ↦ !isLineEnd (some character))
  return (directive, ← emptyLine .malformedDirective cursor)

end LocalizedSite.Yaml
