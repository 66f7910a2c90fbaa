import LocalizedSite.Text.Basic

/-!
# Places in a YAML text

A cursor is a place in a text together with the characters from there on. It knows its line and its
column, on which the structure of a block depends; a byte order mark takes no column. The classes of
characters here are those that end a word, a line, or a line inside a quoted text. They are classes of
`Option Char` because the end of the text belongs to most of them.
-/

namespace LocalizedSite.Yaml

/-- The mark that a text may begin with. -/
def byteOrderMark : Char := '\uFEFF'

/-- A place in a text. -/
structure Cursor where
  /-- The characters from the place on. -/
  rest : Text
  /-- The number of characters before the place. -/
  index : Nat
  /-- The number of line feeds before the place. -/
  line : Nat
  /-- The number of characters before the place on its line. -/
  column : Nat
deriving DecidableEq, Repr

namespace Cursor

/-- The beginning of a text. -/
def ofText (text : Text) : Cursor :=
  ⟨text, 0, 0, 0⟩

/-- The character at a place. -/
def head? (cursor : Cursor) : Option Char :=
  cursor.rest.head?

/-- The character `offset` places further on. -/
def at? (cursor : Cursor) (offset : Nat) : Option Char :=
  cursor.rest[offset]?

/-- The next place. -/
def step (cursor : Cursor) : Cursor :=
  match cursor.rest with
  | [] => cursor
  | character :: rest =>
    if character = '\n' then ⟨rest, cursor.index + 1, cursor.line + 1, 0⟩
    else if character = byteOrderMark then ⟨rest, cursor.index + 1, cursor.line, cursor.column⟩
    else ⟨rest, cursor.index + 1, cursor.line, cursor.column + 1⟩

/-- The place some characters further on. -/
def advance : Nat → Cursor → Cursor
  | 0, cursor => cursor
  | count + 1, cursor => advance count cursor.step

/-- Read the longest run of a class of characters. -/
def takeWhile (cursor : Cursor) (allowed : Char → Bool) : Text × Cursor :=
  let run := cursor.rest.takeWhile allowed
  (run, cursor.advance run.length)

/-- The place after the longest run of a class of characters. -/
def skipWhile (cursor : Cursor) (allowed : Char → Bool) : Cursor :=
  (cursor.takeWhile allowed).2

end Cursor

/-- Whether a line ends here in every context. -/
def isLineEnd : Option Char → Bool
  | none => true
  | some character => character == '\n' || character == '\x85'

/-- Whether a word ends here: at white space or the end of the text. -/
def isGap : Option Char → Bool
  | none => true
  | some character =>
    character == ' ' || character == '\t' || character == '\n' || character == '\x85'

/-- Whether a character breaks a line inside a scalar. -/
def isBreak (character : Char) : Bool :=
  character == '\n' || character == '\x85' || character == '\u2028' || character == '\u2029'

/-- Whether the text ends here or a line inside a scalar does. -/
def isBreakOrEnd : Option Char → Bool
  | none => true
  | some character => isBreak character

/-- Whether a character is a space or a tab. -/
def isSpaceOrTab (character : Char) : Bool :=
  character == ' ' || character == '\t'

namespace Cursor

/-- Read a line break: what it counts as, and the place after it. -/
def lineBreak? (cursor : Cursor) : Option (Text × Cursor) :=
  match cursor.head? with
  | some '\n' | some '\x85' => some (['\n'], cursor.step)
  | some character => if isBreak character then some ([character], cursor.step) else none
  | none => none

/-- The place after a line break, if there is one. -/
def skipLineBreak (cursor : Cursor) : Cursor :=
  match cursor.lineBreak? with
  | some (_, following) => following
  | none => cursor

/-- Skip a comment, up to the end of its line. -/
def skipComment (cursor : Cursor) : Cursor :=
  if cursor.head? = some '#' then cursor.skipWhile fun character ↦ !isLineEnd (some character)
  else cursor

/-- Whether a mark of three characters stands here as a word. -/
def hasMark (cursor : Cursor) (mark : Text) : Bool :=
  cursor.rest.take 3 == mark && isGap (cursor.at? 3)

/-- Whether a mark that begins or ends a document stands here. -/
def hasDocumentMark (cursor : Cursor) : Bool :=
  cursor.hasMark "---".toList || cursor.hasMark "...".toList

end Cursor

end LocalizedSite.Yaml
