import LocalizedSite.Yaml.Quoted

/-!
# Plain scalars

A scalar without quotes goes on as long as its characters have no meaning of their own: up to a colon
that ends a key, a comment, and in a flow collection a comma or a bracket. It may go on over lines that
are indented deeply enough, whose breaks are folded.
-/

namespace LocalizedSite.Yaml

/-- Whether a character ends a plain scalar inside a flow collection. -/
def endsInFlow (character : Char) : Bool :=
  ",[]\x7b\x7d".toList.contains character

/-- The characters of a plain scalar up to white space or to a character with a meaning. -/
def plainRun (inFlow : Bool) : Text → Text
  | [] => []
  | character :: rest =>
    if character = ':' then (if isGap rest.head? then [] else ':' :: plainRun inFlow rest)
    else if isGap (some character) || (inFlow && endsInFlow character) then []
    else character :: plainRun inFlow rest

/-- White space inside a plain scalar. -/
structure PlainSpaces where
  /-- What the white space counts as; nothing if the scalar ends here. -/
  content : Text
  /-- The place after the white space. -/
  following : Cursor
  /-- Whether a line ended. -/
  endsLine : Bool

/-- Read the spaces and line breaks after a line break, up to a mark of a document. -/
def plainBreaks (breaks : Text) : Nat → Cursor → Option Text × Cursor
  | 0, cursor => (some breaks, cursor)
  | fuel + 1, cursor =>
    if cursor.head? = some ' ' then plainBreaks breaks fuel cursor.step
    else
      match cursor.lineBreak? with
      | none => (some breaks, cursor)
      | some (character, cursor) =>
        if cursor.hasDocumentMark then (none, cursor)
        else plainBreaks (breaks ++ character) fuel cursor

/-- Read white space after a piece of a plain scalar. -/
def plainSpaces (cursor : Cursor) : PlainSpaces :=
  let (spaces, cursor) := cursor.takeWhile (· == ' ')
  match cursor.lineBreak? with
  | none => ⟨spaces, cursor, false⟩
  | some (first, cursor) =>
    if cursor.hasDocumentMark then ⟨[], cursor, true⟩
    else
      match plainBreaks [] (cursor.rest.length + 1) cursor with
      | (none, cursor) => ⟨[], cursor, true⟩
      | (some others, cursor) => ⟨folded first others, cursor, true⟩

/-- A plain scalar that was read. -/
structure PlainScalar where
  /-- The text of the scalar. -/
  text : Text
  /-- The place after the scalar and the white space behind it. -/
  following : Cursor
  /-- Whether a line ended behind the scalar. -/
  endsLine : Bool

/-- Read on in a plain scalar whose lines are indented by at least `indent`, after the text read so
far and the white space behind it. -/
def plainFrom (inFlow : Bool) (indent : Int) (text spaces : Text) (endsLine : Bool) :
    Nat → Cursor → PlainScalar
  | 0, cursor => ⟨text, cursor, endsLine⟩
  | fuel + 1, cursor =>
    let run := plainRun inFlow cursor.rest
    if cursor.head? = some '#' ∨ run = [] then ⟨text, cursor, endsLine⟩
    else
      let text := text ++ spaces ++ run
      let found := plainSpaces (cursor.advance run.length)
      let following := found.following
      if found.content.isEmpty || (!inFlow && (following.column : Int) < indent) then
        ⟨text, following, found.endsLine⟩
      else plainFrom inFlow indent text found.content found.endsLine fuel following

/-- Read a plain scalar. -/
def plainScalar (inFlow : Bool) (indent : Int) (cursor : Cursor) : PlainScalar :=
  plainFrom inFlow indent [] [] false (cursor.rest.length + 1) cursor

/-- Whether a plain scalar may begin here. -/
def beginsPlain (inFlow : Bool) (cursor : Cursor) : Bool :=
  match cursor.head? with
  | none => false
  | some character =>
    let next := cursor.at? 1
    if character = '-' then !isGap next
    else if character = ':' then
      if inFlow then !(next == some ' ' || next == some '\t') else !isGap next
    else if character = '?' then !inFlow && !isGap next
    else
      !(isBreak character || isSpaceOrTab character ||
        ",[]\x7b\x7d#&*!|>'\"%@`".toList.contains character)

end LocalizedSite.Yaml
