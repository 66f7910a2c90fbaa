import LocalizedSite.Yaml.Plain
import LocalizedSite.Yaml.Token

/-!
# The tokens of a text

`tokens?` gives the tokens of a text. Block structure is made explicit by tokens that follow from the
columns. A key is recognised only when the colon behind it is reached, so a token that may begin a key
is remembered with its position, and the tokens that announce a key are put in front of it at the end.
Such a key must stand on one line and within a limited length.
-/

namespace LocalizedSite.Yaml

/-- A token that may turn out to begin a key. -/
structure PossibleKey where
  /-- The number of tokens before it. -/
  position : Nat
  /-- Whether it can be nothing but a key. -/
  isRequired : Bool
  /-- The place where it begins. -/
  place : Cursor
deriving DecidableEq, Repr

/-- A token that begins a key. -/
structure KeyMark where
  /-- The number of tokens before it. -/
  position : Nat
  /-- Whether the key is the first of a block mapping. -/
  opensMapping : Bool
deriving DecidableEq, Repr

/-- A kind of flow collection. -/
inductive FlowKind where
  | sequence
  | mapping
deriving DecidableEq, Repr

/-- What is known about a text up to a place. -/
structure LexerState where
  /-- The place. -/
  cursor : Cursor
  /-- The tokens before it, last first. -/
  tokens : List Token
  /-- The number of these tokens. -/
  count : Nat
  /-- The keys among them. -/
  keys : List KeyMark
  /-- The column of the open block, or `-1` outside of every block. -/
  indent : Int
  /-- The columns of the blocks around it, innermost first. -/
  indents : List Int
  /-- The open flow collections, innermost first. -/
  flow : List FlowKind
  /-- Whether a key may begin at the place. -/
  allowsKey : Bool
  /-- The tokens that may begin a key, by the number of flow collections around them. -/
  possible : List (Nat × PossibleKey)
deriving DecidableEq, Repr

/-- The greatest length of a key. -/
def greatestKeyLength : Nat := 1024

namespace LexerState

/-- The state at the beginning of a text. -/
def ofText (text : Text) : LexerState :=
  ⟨.ofText text, [], 0, [], -1, [], [], true, []⟩

/-- Whether a flow collection is open. -/
def inFlow (state : LexerState) : Bool :=
  !state.flow.isEmpty

/-- Add a token. -/
def push (state : LexerState) (token : Token) : LexerState :=
  { state with tokens := token :: state.tokens, count := state.count + 1 }

/-- Add a token and go to the place after it. -/
def pushAt (state : LexerState) (token : Token) (cursor : Cursor) : LexerState :=
  { state.push token with cursor }

/-- Whether a possible key has become impossible at a place: its line has ended, or it has become too
long. -/
def isStale (cursor : Cursor) (key : PossibleKey) : Bool :=
  key.place.line != cursor.line || greatestKeyLength < cursor.index - key.place.index

/-- Forget the possible keys that have become impossible. -/
def dropStale (state : LexerState) : Except Fault LexerState :=
  let (stale, others) := state.possible.partition fun entry ↦ isStale state.cursor entry.2
  if stale.any fun entry ↦ entry.2.isRequired then .error .keyWithoutValue
  else .ok { state with possible := others }

/-- Forget the possible key of the open collection. -/
def dropPossible (state : LexerState) : Except Fault LexerState :=
  let level := state.flow.length
  match state.possible.lookup level with
  | none => .ok state
  | some key =>
    if key.isRequired then .error .keyWithoutValue
    else .ok { state with possible := state.possible.filter fun entry ↦ entry.1 != level }

/-- Remember that the next token may begin a key. -/
def savePossible (state : LexerState) : Except Fault LexerState := do
  if !state.allowsKey then return state
  let isRequired := !state.inFlow && state.indent == state.cursor.column
  let state ← state.dropPossible
  let key : PossibleKey := ⟨state.count, isRequired, state.cursor⟩
  return { state with possible := (state.flow.length, key) :: state.possible }

/-- Close the blocks that are deeper than a column, given the columns around the open block. -/
def closeBlocks (column : Int) : List Int → LexerState → LexerState
  | [], state => state
  | outer :: indents, state =>
    if column < state.indent then
      closeBlocks column indents { state.push .blockEnd with indent := outer, indents }
    else state

/-- Close the blocks that are deeper than a column; inside a flow collection columns do not
matter. -/
def unwind (state : LexerState) (column : Int) : LexerState :=
  if state.inFlow then state else closeBlocks column state.indents state

/-- Open a block at a column unless the open block is at least as deep, and tell whether it was
opened. -/
def openBlock (state : LexerState) (column : Nat) : Bool × LexerState :=
  if state.indent < column then
    (true, { state with indent := column, indents := state.indent :: state.indents })
  else (false, state)

/-- Open a block at the place, with the token that tells so. -/
def openBlockHere (state : LexerState) (token : Token) : LexerState :=
  match state.openBlock state.cursor.column with
  | (true, state) => state.push token
  | (false, state) => state

/-- Skip white space, comments and line breaks. After a line break a key may begin. -/
def skipBlank : Nat → LexerState → LexerState
  | 0, state => state
  | fuel + 1, state =>
    let isSpace := fun character ↦ character == ' ' || (state.inFlow && character == '\t')
    let cursor := (state.cursor.skipWhile isSpace).skipComment
    match cursor.lineBreak? with
    | none => { state with cursor }
    | some (_, cursor) =>
      skipBlank fuel { state with cursor, allowsKey := state.allowsKey || !state.inFlow }

/-- Go to the next token. -/
def toNextToken (state : LexerState) : LexerState :=
  let cursor := state.cursor
  let start := if cursor.index = 0 ∧ cursor.head? = some byteOrderMark then cursor.step else cursor
  skipBlank (start.rest.length + 1) { state with cursor := start }

/-- Leave all blocks; no key may follow. -/
def leaveDocument (state : LexerState) : Except Fault LexerState := do
  let state ← (state.unwind (-1)).dropPossible
  return { state with allowsKey := false }

/-- Read a directive. -/
def readDirective (state : LexerState) : Except Fault LexerState := do
  let state ← state.leaveDocument
  let (directive, cursor) ← directiveLine state.cursor
  return state.pushAt (.directive directive) cursor

/-- Read a mark that begins a document. -/
def readDocumentStart (state : LexerState) : Except Fault LexerState := do
  let state ← state.leaveDocument
  return state.pushAt .documentStart (state.cursor.advance 3)

/-- Read a mark that ends a document, after which the line must be empty. -/
def readDocumentEnd (state : LexerState) : Except Fault LexerState := do
  let state ← state.leaveDocument
  let cursor := state.cursor.advance 3
  let _ ← emptyLine .unexpectedToken cursor
  return state.pushAt .documentEnd cursor

/-- Read the beginning of a flow collection. -/
def readFlowStart (state : LexerState) (kind : FlowKind) : Except Fault LexerState := do
  let state ← state.savePossible
  let token :=
    match kind with
    | .sequence => Token.flowSequenceStart
    | .mapping => Token.flowMappingStart
  return { state.pushAt token state.cursor.step with flow := kind :: state.flow, allowsKey := true }

/-- Read the end of a flow collection. -/
def readFlowEnd (state : LexerState) (token : Token) : Except Fault LexerState := do
  let state ← state.dropPossible
  return { state.pushAt token state.cursor.step with flow := state.flow.tail, allowsKey := false }

/-- Read the comma between entries of a flow collection. -/
def readFlowEntry (state : LexerState) : Except Fault LexerState := do
  let state ← state.dropPossible
  return { state.pushAt .flowEntry state.cursor.step with allowsKey := true }

/-- Check that a key may begin here, unless in a flow collection. -/
def checkPlace (state : LexerState) : Except Fault Unit :=
  if state.inFlow || state.allowsKey then .ok () else .error .misplaced

/-- Read the indicator of an entry of a block sequence. -/
def readBlockEntry (state : LexerState) : Except Fault LexerState := do
  state.checkPlace
  let state := if state.inFlow then state else state.openBlockHere .blockSequenceStart
  let state ← state.dropPossible
  return { state.pushAt .blockEntry state.cursor.step with allowsKey := true }

/-- Read the indicator of a key. -/
def readKey (state : LexerState) : Except Fault LexerState := do
  state.checkPlace
  let state := if state.inFlow then state else state.openBlockHere .blockMappingStart
  let state ← state.dropPossible
  return { state.pushAt .key state.cursor.step with allowsKey := !state.inFlow }

/-- Read a colon behind a possible key, which thereby is a key. -/
def readValueOfKey (state : LexerState) (key : PossibleKey) : LexerState :=
  let level := state.flow.length
  let possible := state.possible.filter fun entry ↦ entry.1 != level
  let (opensMapping, state) :=
    if state.inFlow then (false, state) else state.openBlock key.place.column
  { state.pushAt .value state.cursor.step with
    possible, keys := ⟨key.position, opensMapping⟩ :: state.keys, allowsKey := false }

/-- Read the colon in front of a value. -/
def readValue (state : LexerState) : Except Fault LexerState := do
  match state.possible.lookup state.flow.length with
  | some key => return state.readValueOfKey key
  | none =>
    state.checkPlace
    let state := if state.inFlow then state else state.openBlockHere .blockMappingStart
    let state ← state.dropPossible
    return { state.pushAt .value state.cursor.step with allowsKey := !state.inFlow }

/-- Read a token that may begin a key, and behind which no key may begin. -/
def readPossibleKey (state : LexerState) (read : Cursor → Except Fault (Token × Cursor)) :
    Except Fault LexerState := do
  let state ← state.savePossible
  let (token, cursor) ← read state.cursor
  return { state.pushAt token cursor with allowsKey := false }

/-- Read a block scalar. -/
def readBlockScalar (state : LexerState) (isFolded : Bool) : Except Fault LexerState := do
  let state ← state.dropPossible
  let (text, cursor) ← blockScalar isFolded state.indent state.cursor
  return { state.pushAt (.scalar text false) cursor with allowsKey := true }

/-- Read a plain scalar; a key may follow it on a later line. -/
def readPlain (state : LexerState) : Except Fault LexerState := do
  let state ← state.savePossible
  let found := plainScalar state.inFlow (state.indent + 1) state.cursor
  return { state.pushAt (.scalar found.text true) found.following with allowsKey := found.endsLine }

/-- Whether a colon stands in front of a value. Inside a flow collection it need not be followed by
white space, unless the collection is a sequence or the colon follows another one while a key is
still possible. -/
def isValueIndicator (state : LexerState) (hasPossible : Bool) : Bool :=
  isGap (state.cursor.at? 1) ||
    match state.flow with
    | [] | .sequence :: _ => false
    | .mapping :: _ => !(hasPossible && state.tokens.head? == some .value)

/-- Whether an indicator of a key stands here. -/
def isKeyIndicator (state : LexerState) : Bool :=
  state.inFlow || isGap (state.cursor.at? 1)

/-- Whether the place begins a line. -/
def beginsLine (state : LexerState) : Bool :=
  state.cursor.column == 0

/-- Read the token that begins with a character at the place. -/
def readToken (state : LexerState) (hasPossible : Bool) (character : Char) :
    Except Fault LexerState :=
  let cursor := state.cursor
  if character = '%' ∧ state.beginsLine then state.readDirective
  else if state.beginsLine ∧ cursor.hasMark "---".toList then state.readDocumentStart
  else if state.beginsLine ∧ cursor.hasMark "...".toList then state.readDocumentEnd
  else if character = '[' then state.readFlowStart .sequence
  else if character = '\x7b' then state.readFlowStart .mapping
  else if character = ']' then state.readFlowEnd .flowSequenceEnd
  else if character = '\x7d' then state.readFlowEnd .flowMappingEnd
  else if character = ',' then state.readFlowEntry
  else if character = '-' ∧ isGap (cursor.at? 1) then state.readBlockEntry
  else if character = '?' ∧ state.isKeyIndicator then state.readKey
  else if character = ':' ∧ state.isValueIndicator hasPossible then state.readValue
  else if character = '*' then
    state.readPossibleKey fun cursor ↦
      (anchorName cursor.step).map fun (name, cursor) ↦ (.alias name, cursor)
  else if character = '&' then
    state.readPossibleKey fun cursor ↦
      (anchorName cursor.step).map fun (name, cursor) ↦ (.anchor name, cursor)
  else if character = '!' then
    state.readPossibleKey fun cursor ↦
      (tagName cursor).map fun (name, cursor) ↦ (.tag name, cursor)
  else if (character = '|' ∨ character = '>') ∧ !state.inFlow then
    state.readBlockScalar (character == '>')
  else if character = '\'' ∨ character = '"' then
    state.readPossibleKey fun cursor ↦
      (quotedScalar character cursor).map fun (text, cursor) ↦ (.scalar text false, cursor)
  else if beginsPlain state.inFlow cursor then state.readPlain
  else .error .unexpectedCharacter

/-- Read the tokens up to the end of the text. -/
def readAll : Nat → LexerState → Except Fault LexerState
  | 0, state => .ok state
  | fuel + 1, state => do
    let state ← state.dropStale
    let hasPossible := !state.possible.isEmpty
    let state ← state.toNextToken.dropStale
    let state := state.unwind state.cursor.column
    match state.cursor.head? with
    | none => state.leaveDocument
    | some character => readAll fuel (← state.readToken hasPossible character)

/-- The tokens in order, with those that announce a key in front of it. -/
def inOrder (state : LexerState) : List Token :=
  (state.tokens.reverse.zipIdx).flatMap fun (token, position) ↦
    match state.keys.find? fun key ↦ key.position == position with
    | none => [token]
    | some key => (if key.opensMapping then [.blockMappingStart] else []) ++ [.key, token]

end LexerState

/-- Whether a character may stand in a text at all. -/
def isAllowed (character : Char) : Bool :=
  let code := character.toNat
  character == '\t' || character == '\n' || character == '\r' || (0x20 ≤ code && code ≤ 0x7e) ||
    code == 0x85 || (0xa0 ≤ code && code ≤ 0xfffd) || 0x10000 ≤ code

/-- The tokens of a text whose lines end in line feeds. -/
def tokens? (text : Text) : Except Fault (List Token) := do
  if !text.all isAllowed then throw .unprintable
  let state ← LexerState.readAll (text.length + 2) (.ofText text)
  return state.inOrder

end LocalizedSite.Yaml
