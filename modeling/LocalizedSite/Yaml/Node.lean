import LocalizedSite.Entries
import LocalizedSite.Yaml.Lexer

/-!
# Nodes

A node is a scalar, a sequence of nodes, or a mapping of nodes to nodes, with the tag that was written
for it. `Node.ofTokens?` reads the one node of a document; an alias stands for a copy of the node with
its anchor, which must be complete by then.
-/

namespace LocalizedSite.Yaml

/-- A node of a document. -/
inductive Node where
  /-- A scalar; whether its text may denote something other than a text. -/
  | scalar (tag : Option Text) (text : Text) (isPlain : Bool)
  | sequence (tag : Option Text) (items : List Node)
  | mapping (tag : Option Text) (entries : List (Node × Node))

/-- The scalar that stands where nothing is written. -/
def Node.absent : Node :=
  .scalar none [] true

/-- What is left to read of a document, and what is known from the part before. -/
structure NodeReader where
  /-- The tokens to read. -/
  tokens : List Token
  /-- The nodes with an anchor. -/
  anchors : Entries Node
  /-- What the handles of tags stand for. -/
  handles : Entries Text

namespace NodeReader

/-- The next token, if any. -/
def head? (reader : NodeReader) : Option Token :=
  reader.tokens.head?

/-- Leave the next token behind. -/
def skip (reader : NodeReader) : NodeReader :=
  { reader with tokens := reader.tokens.tail }

/-- Whether the next token is one of a list. -/
def isAt (reader : NodeReader) (expected : List Token) : Bool :=
  reader.head?.any expected.contains

/-- The text that a tag stands for; the tag that only says that the node has one counts as
none. -/
def tagText (reader : NodeReader) (name : TagName) : Except Fault (Option Text) :=
  let resolved :=
    match name.handle with
    | none => some name.suffix
    | some handle => (Entries.get? reader.handles handle).map (· ++ name.suffix)
  match resolved with
  | none => .error .malformedTag
  | some text => .ok (if text = ['!'] then none else some text)

/-- The properties of a node. -/
structure Properties where
  /-- The name under which the node may be repeated. -/
  anchor : Option Text
  /-- The tag of the node. -/
  tag : Option Text
  /-- Whether any property was written. -/
  isWritten : Bool
  /-- Whether a tag was written that leaves the meaning of the text open. -/
  isOpen : Bool

/-- Read the properties of a node: an anchor and a tag, in either order. -/
def properties (reader : NodeReader) : Except Fault (Properties × NodeReader) := do
  match reader.tokens with
  | .anchor anchor :: .tag name :: _ =>
    let tag ← reader.tagText name
    return (⟨some anchor, tag, true, tag.isNone⟩, reader.skip.skip)
  | .tag name :: .anchor anchor :: _ =>
    let tag ← reader.tagText name
    return (⟨some anchor, tag, true, tag.isNone⟩, reader.skip.skip)
  | .anchor anchor :: _ => return (⟨some anchor, none, true, false⟩, reader.skip)
  | .tag name :: _ =>
    let tag ← reader.tagText name
    return (⟨none, tag, true, tag.isNone⟩, reader.skip)
  | _ => return (⟨none, none, false, false⟩, reader)

/-- Remember a node under its anchor. -/
def keep (reader : NodeReader) (anchor : Option Text) (node : Node) : NodeReader :=
  match anchor with
  | none => reader
  | some name => { reader with anchors := Entries.put reader.anchors name node }

/-- Where a node stands. -/
inductive Context where
  /-- Inside a flow collection. -/
  | flow
  /-- Inside a block. -/
  | block
  /-- Inside a block, where the entries of a sequence may stand without a block of their own. -/
  | blockOrEntries
deriving DecidableEq, Repr

/-- Read something between two tokens, or nothing if a token of a list comes at once. -/
def absentAt (expected : List Token) (reader : NodeReader)
    (read : NodeReader → Except Fault (Node × NodeReader)) : Except Fault (Node × NodeReader) :=
  if reader.isAt expected then .ok (.absent, reader) else read reader

mutual

/-- Read a node. -/
def node : Nat → Context → NodeReader → Except Fault (Node × NodeReader)
  | 0, _, _ => .error .unexpectedToken
  | fuel + 1, context, reader =>
    match reader.head? with
    | some (.alias name) =>
      match Entries.get? reader.anchors name with
      | some node => .ok (node, reader.skip)
      | none => .error .undefinedAlias
    | _ => do
      let (properties, reader) ← reader.properties
      let (found, reader) ← content fuel context properties reader
      return (found, reader.keep properties.anchor found)

/-- Read the content of a node. -/
def content : Nat → Context → Properties → NodeReader → Except Fault (Node × NodeReader)
  | 0, _, _, _ => .error .unexpectedToken
  | fuel + 1, context, properties, reader =>
    let tag := properties.tag
    let isBlock := context != .flow
    match reader.head? with
    | some (.scalar text isPlain) =>
      .ok (.scalar tag text ((isPlain && tag.isNone) || properties.isOpen), reader.skip)
    | some .flowSequenceStart => flowItems fuel tag [] true reader.skip
    | some .flowMappingStart => flowEntries fuel tag [] true reader.skip
    | found =>
      if context = .blockOrEntries ∧ found = some .blockEntry then entryItems fuel tag [] reader
      else if isBlock ∧ found = some .blockSequenceStart then blockItems fuel tag [] reader.skip
      else if isBlock ∧ found = some .blockMappingStart then blockEntries fuel tag [] reader.skip
      else if properties.isWritten then .ok (.scalar tag [] tag.isNone, reader)
      else .error .unexpectedToken

/-- Read the items of a block sequence, after those read so far in reverse. -/
def blockItems : Nat → Option Text → List Node → NodeReader → Except Fault (Node × NodeReader)
  | 0, _, _, _ => .error .unexpectedToken
  | fuel + 1, tag, items, reader =>
    match reader.head? with
    | some .blockEntry => do
      let (item, reader) ←
        absentAt [.blockEntry, .blockEnd] reader.skip (node fuel .block)
      blockItems fuel tag (item :: items) reader
    | some .blockEnd => .ok (.sequence tag items.reverse, reader.skip)
    | _ => .error .unexpectedToken

/-- Read the items of a sequence that has no block of its own. -/
def entryItems : Nat → Option Text → List Node → NodeReader → Except Fault (Node × NodeReader)
  | 0, _, _, _ => .error .unexpectedToken
  | fuel + 1, tag, items, reader =>
    match reader.head? with
    | some .blockEntry => do
      let (item, reader) ←
        absentAt [.blockEntry, .key, .value, .blockEnd] reader.skip (node fuel .block)
      entryItems fuel tag (item :: items) reader
    | _ => .ok (.sequence tag items.reverse, reader)

/-- Read the entries of a block mapping. -/
def blockEntries : Nat → Option Text → List (Node × Node) → NodeReader →
    Except Fault (Node × NodeReader)
  | 0, _, _, _ => .error .unexpectedToken
  | fuel + 1, tag, entries, reader =>
    match reader.head? with
    | some .key => do
      let (key, reader) ←
        absentAt [.key, .value, .blockEnd] reader.skip (node fuel .blockOrEntries)
      let (value, reader) ← blockValue fuel reader
      blockEntries fuel tag ((key, value) :: entries) reader
    | some .value => do
      let (value, reader) ← blockValue fuel reader
      blockEntries fuel tag ((.absent, value) :: entries) reader
    | some .blockEnd => .ok (.mapping tag entries.reverse, reader.skip)
    | _ => .error .unexpectedToken

/-- Read the value of an entry of a block mapping. -/
def blockValue : Nat → NodeReader → Except Fault (Node × NodeReader)
  | 0, _ => .error .unexpectedToken
  | fuel + 1, reader =>
    if reader.head? = some .value then
      absentAt [.key, .value, .blockEnd] reader.skip (node fuel .blockOrEntries)
    else .ok (.absent, reader)

/-- Read the items of a flow sequence. -/
def flowItems : Nat → Option Text → List Node → Bool → NodeReader →
    Except Fault (Node × NodeReader)
  | 0, _, _, _, _ => .error .unexpectedToken
  | fuel + 1, tag, items, isFirst, reader =>
    if reader.head? = some .flowSequenceEnd then
      .ok (.sequence tag items.reverse, reader.skip)
    else if isFirst then flowItem fuel tag items reader
    else if reader.head? = some .flowEntry then flowItem fuel tag items reader.skip
    else .error .unexpectedToken

/-- Read an item of a flow sequence, or its end behind a comma; a key makes the item a mapping of
one entry. -/
def flowItem : Nat → Option Text → List Node → NodeReader → Except Fault (Node × NodeReader)
  | 0, _, _, _ => .error .unexpectedToken
  | fuel + 1, tag, items, reader =>
    match reader.head? with
    | some .flowSequenceEnd => .ok (.sequence tag items.reverse, reader.skip)
    | some .key => do
      let ending : List Token := [.flowEntry, .flowSequenceEnd]
      let (key, reader) ← absentAt (.value :: ending) reader.skip (node fuel .flow)
      let (value, reader) ←
        if reader.head? = some .value then absentAt ending reader.skip (node fuel .flow)
        else pure (.absent, reader)
      flowItems fuel tag (.mapping none [(key, value)] :: items) false reader
    | _ => do
      let (item, reader) ← node fuel .flow reader
      flowItems fuel tag (item :: items) false reader

/-- Read the entries of a flow mapping. -/
def flowEntries : Nat → Option Text → List (Node × Node) → Bool → NodeReader →
    Except Fault (Node × NodeReader)
  | 0, _, _, _, _ => .error .unexpectedToken
  | fuel + 1, tag, entries, isFirst, reader =>
    if reader.head? = some .flowMappingEnd then
      .ok (.mapping tag entries.reverse, reader.skip)
    else if isFirst then flowPair fuel tag entries reader
    else if reader.head? = some .flowEntry then flowPair fuel tag entries reader.skip
    else .error .unexpectedToken

/-- Read an entry of a flow mapping, or its end behind a comma. -/
def flowPair : Nat → Option Text → List (Node × Node) → NodeReader →
    Except Fault (Node × NodeReader)
  | 0, _, _, _ => .error .unexpectedToken
  | fuel + 1, tag, entries, reader =>
    let ending : List Token := [.flowEntry, .flowMappingEnd]
    match reader.head? with
    | some .flowMappingEnd => .ok (.mapping tag entries.reverse, reader.skip)
    | some .key => do
      let (key, reader) ← absentAt (.value :: ending) reader.skip (node fuel .flow)
      let (value, reader) ← flowValue fuel reader
      flowEntries fuel tag ((key, value) :: entries) false reader
    | some .value => do
      let (value, reader) ← flowValue fuel reader
      flowEntries fuel tag ((.absent, value) :: entries) false reader
    | _ => do
      let (key, reader) ← node fuel .flow reader
      flowEntries fuel tag ((key, .absent) :: entries) false reader

/-- Read the value of an entry of a flow mapping. -/
def flowValue : Nat → NodeReader → Except Fault (Node × NodeReader)
  | 0, _ => .error .unexpectedToken
  | fuel + 1, reader =>
    if reader.head? = some .value then
      absentAt [.flowEntry, .flowMappingEnd] reader.skip (node fuel .flow)
    else .ok (.absent, reader)

end

/-- The handles that every document has. -/
def standardHandles : Entries Text :=
  [("!".toList, "!".toList), ("!!".toList, "tag:yaml.org,2002:".toList)]

/-- Read the directives of a document; the version may be given once and must be a first one, and a
handle may be declared once. -/
def directives (hasVersion : Bool) (declared : Entries Text) :
    List Token → Except Fault (Entries Text × List Token)
  | .directive (.version major _) :: tokens =>
    if hasVersion || major != 1 then .error .malformedDirective
    else directives true declared tokens
  | .directive (.handle name meaning) :: tokens =>
    if Entries.has declared name then .error .malformedDirective
    else directives hasVersion (declared ++ [(name, meaning)]) tokens
  | .directive .other :: tokens => directives hasVersion declared tokens
  | tokens => .ok (declared, tokens)

/-- The number of calls that reading some tokens takes at most. -/
def effort (tokens : List Token) : Nat :=
  4 * tokens.length + 8

/-- Read the node of a document that begins with a mark. -/
def markedDocument (tokens : List Token) : Except Fault (Node × NodeReader) := do
  let (declared, tokens) ← directives false [] tokens
  match tokens with
  | .documentStart :: tokens =>
    let reader : NodeReader := ⟨tokens, [], Entries.putAllNew declared standardHandles⟩
    match tokens with
    | [] | .directive _ :: _ | .documentStart :: _ | .documentEnd :: _ => return (.absent, reader)
    | _ => node (effort tokens) .block reader
  | _ => throw .unexpectedToken

end NodeReader

/-- The node of a document; nothing if there is no document. -/
def Node.ofTokens? (tokens : List Token) : Except Fault (Option Node) := do
  match tokens with
  | [] => return none
  | first :: _ =>
    let (found, reader) ←
      match first with
      | .directive _ | .documentStart => NodeReader.markedDocument tokens
      | _ =>
        NodeReader.node (NodeReader.effort tokens) .block ⟨tokens, [], NodeReader.standardHandles⟩
    match reader.tokens with
    | [] | [.documentEnd] => return some found
    | _ => throw .secondDocument

end LocalizedSite.Yaml
