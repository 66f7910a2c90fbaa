import LocalizedSite.Yaml.Quoted

/-!
# Block scalars

A block scalar begins with a header and takes the lines that are indented deeply enough. A literal one
keeps its line breaks; a folded one turns a single break between two lines that begin with text into a
space. The header says what becomes of the breaks at the end.
-/

namespace LocalizedSite.Yaml

/-- What becomes of the line breaks at the end of a block scalar. -/
inductive Chomping where
  /-- One break is kept. -/
  | clip
  /-- All breaks are kept. -/
  | keep
  /-- No break is kept. -/
  | strip
deriving DecidableEq, Repr

/-- The header of a block scalar. -/
structure BlockHeader where
  /-- What becomes of the line breaks at the end. -/
  chomping : Chomping
  /-- By how much the lines are indented, if the header says so. -/
  increment : Option Nat
deriving DecidableEq, Repr

/-- Read the sign that tells what becomes of the breaks at the end. -/
def chompingSign (cursor : Cursor) : Option Chomping × Cursor :=
  match cursor.head? with
  | some '+' => (some .keep, cursor.step)
  | some '-' => (some .strip, cursor.step)
  | _ => (none, cursor)

/-- Read the digit that tells the indentation. -/
def incrementDigit (cursor : Cursor) : Except Fault (Option Nat × Cursor) :=
  match cursor.head? with
  | some '0' => .error .malformedHeader
  | some character =>
    if Text.isLatinDigit character then .ok (Text.hexDigitValue? character, cursor.step)
    else .ok (none, cursor)
  | none => .ok (none, cursor)

/-- Read the sign and the digit of a header, in either order. -/
def headerMarks (cursor : Cursor) : Except Fault (BlockHeader × Cursor) := do
  match chompingSign cursor with
  | (some chomping, cursor) =>
    let (increment, cursor) ← incrementDigit cursor
    return (⟨chomping, increment⟩, cursor)
  | (none, cursor) =>
    match ← incrementDigit cursor with
    | (none, cursor) => return (⟨.clip, none⟩, cursor)
    | (increment, cursor) =>
      let (chomping, cursor) := chompingSign cursor
      return (⟨chomping.getD .clip, increment⟩, cursor)

/-- Skip the rest of a line that may hold a comment only. -/
def emptyLine (fault : Fault) (cursor : Cursor) : Except Fault Cursor :=
  let cursor := (cursor.skipWhile (· == ' ')).skipComment
  if isBreakOrEnd cursor.head? then .ok cursor.skipLineBreak else .error fault

/-- Read the header of a block scalar from behind its indicator. -/
def blockHeader (cursor : Cursor) : Except Fault (BlockHeader × Cursor) := do
  let (header, cursor) ← headerMarks cursor
  if !(isBreakOrEnd cursor.head? || cursor.head? == some ' ') then throw .malformedHeader
  return (header, ← emptyLine .malformedHeader cursor)

/-- Read the empty lines before the first line of a block scalar, with the greatest column that
their spaces and those of the first line reach. -/
def blockIndentation (breaks : Text) (deepest : Nat) : Nat → Cursor → Text × Nat × Cursor
  | 0, cursor => (breaks, deepest, cursor)
  | fuel + 1, cursor =>
    if cursor.head? = some ' ' then
      blockIndentation breaks (max deepest cursor.step.column) fuel cursor.step
    else
      match cursor.lineBreak? with
      | some (character, cursor) => blockIndentation (breaks ++ character) deepest fuel cursor
      | none => (breaks, deepest, cursor)

/-- Skip spaces as far as the indentation goes. -/
def skipIndentation (indent : Nat) : Nat → Cursor → Cursor
  | 0, cursor => cursor
  | fuel + 1, cursor =>
    if cursor.column < indent ∧ cursor.head? = some ' ' then
      skipIndentation indent fuel cursor.step
    else cursor

/-- Read the line breaks between two lines of a block scalar, up to the indentation of the next. -/
def blockBreaks (indent : Nat) (breaks : Text) : Nat → Cursor → Text × Cursor
  | 0, cursor => (breaks, cursor)
  | fuel + 1, cursor =>
    let cursor := skipIndentation indent indent cursor
    match cursor.lineBreak? with
    | some (character, cursor) => blockBreaks indent (breaks ++ character) fuel cursor
    | none => (breaks, cursor)

/-- The lines of a block scalar that were read. -/
structure BlockLines where
  /-- The lines with the breaks between them. -/
  text : Text
  /-- The break after the last line. -/
  lastBreak : Text
  /-- The further breaks. -/
  breaks : Text
  /-- The place after them. -/
  following : Cursor

/-- What the breaks between two lines count as, apart from those that stand for empty lines. -/
def lineJoint (isFolded : Bool) (first : Option Char) (lastBreak breaks : Text)
    (next : Option Char) : Text :=
  let beginsWithText := fun (character : Option Char) ↦ !(character.any isSpaceOrTab)
  if isFolded && lastBreak == ['\n'] && beginsWithText first && beginsWithText next then
    if breaks.isEmpty then [' '] else []
  else lastBreak

/-- Read the lines of a block scalar that are indented by `indent`. A scalar that need not be indented
ends before a mark of a document. -/
def blockLines (isFolded mayTouchMargin : Bool) (indent : Nat) :
    Nat → BlockLines → BlockLines
  | 0, lines => lines
  | fuel + 1, lines =>
    let cursor := lines.following
    if cursor.column != indent || cursor.rest.isEmpty then lines
    else
      let (run, ending) := cursor.takeWhile fun character ↦ !isLineEnd (some character)
      let text := lines.text ++ lines.breaks ++ run
      let (lastBreak, ending) := ending.lineBreak?.getD ([], ending)
      let (breaks, next) := blockBreaks indent [] (ending.rest.length + 1) ending
      let isAtMark := mayTouchMargin && next.column == 0 && next.hasDocumentMark
      if isAtMark || next.column != indent || next.rest.isEmpty then
        ⟨text, lastBreak, breaks, next⟩
      else
        let joint := lineJoint isFolded cursor.head? lastBreak breaks next.head?
        blockLines isFolded mayTouchMargin indent fuel ⟨text ++ joint, [], breaks, next⟩

/-- Go to the first line of a block scalar: the empty lines before it, its indentation, and
whether the scalar need not be indented. -/
def blockStart (parent : Int) (increment : Option Nat) (cursor : Cursor) :
    Text × Nat × Bool × Cursor :=
  let least := parent + 1
  match increment with
  | none =>
    let (breaks, deepest, cursor) := blockIndentation [] 0 (cursor.rest.length + 1) cursor
    (breaks, max least.toNat deepest, least == 0, cursor)
  | some increment =>
    let indent := (max least 1).toNat + increment - 1
    let (breaks, cursor) := blockBreaks indent [] (cursor.rest.length + 1) cursor
    (breaks, indent, false, cursor)

/-- Read a block scalar whose parent is indented by `parent`. -/
def blockScalar (isFolded : Bool) (parent : Int) (cursor : Cursor) :
    Except Fault (Text × Cursor) := do
  let (header, cursor) ← blockHeader cursor.step
  let (breaks, indent, mayTouchMargin, cursor) := blockStart parent header.increment cursor
  let lines := blockLines isFolded mayTouchMargin indent (cursor.rest.length + 1)
    ⟨[], [], breaks, cursor⟩
  let ending :=
    match header.chomping with
    | .clip => lines.lastBreak
    | .keep => lines.lastBreak ++ lines.breaks
    | .strip => []
  return (lines.text ++ ending, lines.following)

end LocalizedSite.Yaml
