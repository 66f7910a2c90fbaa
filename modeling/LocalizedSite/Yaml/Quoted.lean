import LocalizedSite.Text.DecimalDigit
import LocalizedSite.Yaml.Cursor
import LocalizedSite.Yaml.Fault

/-!
# Quoted scalars

Between single quotes a doubled quote stands for one quote and nothing else is special. Between double
quotes a backslash begins an escape sequence. In both a line break is folded: one break counts as a
space, more breaks count as one less, and the white space around them is dropped.
-/

namespace LocalizedSite.Yaml

/-- The character that an escape letter stands for. -/
def escaped? : Char → Option Char
  | '0' => some '\x00'
  | 'a' => some '\x07'
  | 'b' => some '\x08'
  | 't' | '\t' => some '\t'
  | 'n' => some '\n'
  | 'v' => some '\x0b'
  | 'f' => some '\x0c'
  | 'r' => some '\r'
  | 'e' => some '\x1b'
  | ' ' => some ' '
  | '"' => some '"'
  | '/' => some '/'
  | '\\' => some '\\'
  | 'N' => some '\x85'
  | '_' => some '\xa0'
  | 'L' => some '\u2028'
  | 'P' => some '\u2029'
  | _ => none

/-- The number of hexadecimal digits after an escape letter. -/
def escapeLength? : Char → Option Nat
  | 'x' => some 2
  | 'u' => some 4
  | 'U' => some 8
  | _ => none

/-- Read the line breaks after a line break, with the white space before each of them. A document
must not end here. -/
def foldedBreaks (breaks : Text) : Nat → Cursor → Except Fault (Text × Cursor)
  | 0, cursor => .ok (breaks, cursor)
  | fuel + 1, cursor =>
    if cursor.hasDocumentMark then .error .unclosedQuote
    else
      let cursor := cursor.skipWhile isSpaceOrTab
      match cursor.lineBreak? with
      | none => .ok (breaks, cursor)
      | some (character, cursor) => foldedBreaks (breaks ++ character) fuel cursor

/-- What a line break and those after it count as. -/
def folded (first others : Text) : Text :=
  if first != ['\n'] then first ++ others
  else if others.isEmpty then [' ']
  else others

/-- Read white space inside a quoted scalar, folding line breaks. -/
def quotedSpaces (cursor : Cursor) : Except Fault (Text × Cursor) :=
  let (spaces, cursor) := cursor.takeWhile isSpaceOrTab
  match cursor.head?, cursor.lineBreak? with
  | none, _ => .error .unclosedQuote
  | some _, none => .ok (spaces, cursor)
  | some _, some (first, cursor) => do
    let (others, cursor) ← foldedBreaks [] (cursor.rest.length + 1) cursor
    return (folded first others, cursor)

/-- Read the escape sequence after a backslash. -/
def escapeSequence (cursor : Cursor) : Except Fault (Text × Cursor) :=
  match cursor.head? with
  | none => .error .unknownEscape
  | some character =>
    match escaped? character, escapeLength? character, cursor.lineBreak? with
    | some denoted, _, _ => .ok ([denoted], cursor.step)
    | none, some length, _ =>
      let digits := cursor.step.rest.take length
      let code := Text.hexValue digits
      if digits.length < length ∨ !digits.all Text.isHexDigit then .error .unknownEscape
      else if 0x10FFFF < code then .error .noCharacter
      else .ok ([Char.ofNat code], cursor.step.advance length)
    | none, none, some (_, cursor) => foldedBreaks [] (cursor.rest.length + 1) cursor
    | none, none, none => .error .unknownEscape

/-- Read a quoted scalar from behind its opening quote; what was read so far is in reverse. -/
def quotedFrom (mark : Char) (read : Text) : Nat → Cursor → Except Fault (Text × Cursor)
  | 0, _ => .error .unclosedQuote
  | fuel + 1, cursor =>
    match cursor.head? with
    | none => .error .unclosedQuote
    | some character =>
      if character = mark then
        if mark = '\'' ∧ cursor.at? 1 = some '\'' then
          quotedFrom mark ('\'' :: read) fuel (cursor.advance 2)
        else .ok (read.reverse, cursor.step)
      else if isSpaceOrTab character || isBreak character then do
        let (spaces, cursor) ← quotedSpaces cursor
        quotedFrom mark (spaces.reverse ++ read) fuel cursor
      else if mark = '"' ∧ character = '\\' then do
        let (denoted, cursor) ← escapeSequence cursor.step
        quotedFrom mark (denoted.reverse ++ read) fuel cursor
      else quotedFrom mark (character :: read) fuel cursor.step

/-- Read a quoted scalar. -/
def quotedScalar (mark : Char) (cursor : Cursor) : Except Fault (Text × Cursor) :=
  quotedFrom mark [] cursor.rest.length cursor.step

end LocalizedSite.Yaml
