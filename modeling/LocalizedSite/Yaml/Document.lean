import LocalizedSite.Yaml.Node
import LocalizedSite.Yaml.ScalarValue

/-!
# The value of a document

`load` gives the value of a YAML text with at most one document. A mapping must not have a key twice,
unless other mappings are merged into it: then the entries that stand in the mapping itself win, and of
several merged mappings the first one.
-/

namespace LocalizedSite.Yaml

namespace Node

/-- Whether a node is the mark of the mappings that are merged into a mapping. -/
def isMerge : Node → Bool
  | .scalar none text isPlain => isPlain && text == mergeMark
  | .scalar (some tag) _ _ => tag == tagBase ++ "merge".toList
  | _ => false

/-- Whether a node is the mark of a default value. -/
def isDefaultMark : Node → Bool
  | .scalar none text isPlain => isPlain && text == defaultMark
  | _ => false

/-- The value of a scalar. -/
def scalarValue (tag : Option Text) (text : Text) (isPlain : Bool) : Except Fault Value :=
  match tag with
  | some tag => tagValue tag text
  | none => if isPlain then plainValue text else .ok (.text text)

/-- Whether a tag is a known one. -/
def isTagged (tag : Option Text) (name : String) : Bool :=
  tag.any (· == tagBase ++ name.toList)

end Node

/-- Whether a value may stand inside a key: it is no collection, and no part of it is one. -/
def isRigid : Value → Bool
  | .sequence _ | .mapping _ | .set _ | .listed _ => false
  | .pair first second => isRigid first && isRigid second
  | _ => true

/-- Check that a value may be a key: no mapping or set, and no list of collections. -/
def checkKey (key : Value) : Except Fault Unit :=
  match key with
  | .mapping _ | .set _ | .listed _ => .error .mappingKey
  | .sequence items => if items.all isRigid then .ok () else .error .nestedKey
  | _ => .ok ()

/-- The entries of a mapping in its own right: a key must not come twice. -/
def distinctEntries (entries : List (Value × Value)) : Except Fault (List (Value × Value)) :=
  entries.foldlM (fun found (key, value) ↦
    if found.any fun entry ↦ Value.sameKey entry.1 key then .error .duplicateKey
    else .ok (found ++ [(key, value)])) []

/-- Put an entry behind those of a mapping that is written as a list: its key must not be a
collection nor be among theirs. -/
def addListed (found : List (Value × Value)) (entry : Value × Value) :
    Except Fault (List (Value × Value)) :=
  if !isRigid entry.1 then .error .nestedKey
  else if found.any fun other ↦ Value.sameKey other.1 entry.1 then .error .repeatedEntry
  else .ok (found ++ [entry])

/-- The mapping that is written as a list of entries. -/
def listedMapping (entries : List (Value × Value)) : Except Fault Value :=
  (entries.foldlM addListed []).map .listed

/-- The entries of a mapping after merging: a key has its last value at its first place. -/
def overridden (entries : List (Value × Value)) : List (Value × Value) :=
  entries.foldl (fun found (key, value) ↦ Value.putEntry key value found) []

/-- The entries of a mapping: those merged into it, if it asks for that, and its own ones. -/
structure MappingParts where
  /-- The merged entries. -/
  merged : Option (List (Value × Value))
  /-- The entries of the mapping itself. -/
  own : List (Value × Value)

/-- All entries, the merged ones first. -/
def MappingParts.all (parts : MappingParts) : List (Value × Value) :=
  parts.merged.getD [] ++ parts.own

/-- The mapping that the parts make up. -/
def MappingParts.value (parts : MappingParts) : Except Fault Value :=
  match parts.merged with
  | some _ => .ok (.mapping (overridden parts.all))
  | none => (distinctEntries parts.own).map .mapping

/-- The set of the keys that the parts make up. -/
def MappingParts.set (parts : MappingParts) : Except Fault Value := do
  return .set (((← parts.value).entries?.getD []).map Prod.fst)

/-- Put an entry in front of the entries of a mapping. -/
def MappingParts.addOwn (key value : Value) (parts : MappingParts) : MappingParts :=
  { parts with own := (key, value) :: parts.own }

/-- Add the entries to be merged into a mapping, which may ask for that once. -/
def MappingParts.addMerged (entries : List (Value × Value)) (parts : MappingParts) :
    Except Fault MappingParts :=
  match parts.merged with
  | some _ => .error .duplicateKey
  | none => .ok { parts with merged := some entries }

mutual

/-- The value of a node. -/
def Node.value : Node → Except Fault Value
  | .scalar tag text isPlain => Node.scalarValue tag text isPlain
  | .sequence tag items =>
    if tag.isNone || Node.isTagged tag "seq" then (itemValues items).map .sequence
    else if Node.isTagged tag "omap" then (pairValues items).bind listedMapping
    else if Node.isTagged tag "pairs" then
      (pairValues items).map fun pairs ↦ .sequence (pairs.map fun (first, second) ↦
        .pair first second)
    else .error .unknownTag
  | .mapping tag entries =>
    if tag.isNone || Node.isTagged tag "map" then (mappingParts entries).bind MappingParts.value
    else if Node.isTagged tag "set" then (mappingParts entries).bind MappingParts.set
    else .error .unknownTag

/-- The values of the items of a sequence. -/
def itemValues : List Node → Except Fault (List Value)
  | [] => .ok []
  | item :: items => do
    let first ← item.value
    return first :: (← itemValues items)

/-- The values of the items of a sequence of mappings with one entry each. -/
def pairValues : List Node → Except Fault (List (Value × Value))
  | [] => .ok []
  | .mapping _ entries :: items => do
    let first ← pairValue entries
    return first :: (← pairValues items)
  | _ :: _ => .error .unknownTag

/-- The values of the key and the value of a mapping with one entry. -/
def pairValue : List (Node × Node) → Except Fault (Value × Value)
  | [(key, value)] => do
    let first ← key.value
    return (first, ← value.value)
  | _ => .error .unknownTag

/-- The parts of a mapping. -/
def mappingParts : List (Node × Node) → Except Fault MappingParts
  | [] => .ok ⟨none, []⟩
  | (key, value) :: entries => do
    if key.isMerge then
      let merged ← value.mergedEntries
      (← mappingParts entries).addMerged merged
    else
      let name ← if key.isDefaultMark then pure (.text defaultMark) else key.value
      checkKey name
      let found ← value.value
      return (← mappingParts entries).addOwn name found

/-- The entries that a node contributes to a mapping into which it is merged. -/
def Node.mergedEntries : Node → Except Fault (List (Value × Value))
  | .mapping _ entries => do return (← mappingParts entries).all
  | .sequence _ items => do return (← mergedItems items)
  | .scalar _ _ _ => .error .unmergeable

/-- The entries that the items of a sequence contribute, those of the first item last. -/
def mergedItems : List Node → Except Fault (List (Value × Value))
  | [] => .ok []
  | .mapping _ entries :: items => do
    let first := (← mappingParts entries).all
    return (← mergedItems items) ++ first
  | _ :: _ => .error .unmergeable

end

/-- The value of a text; a text without a document has none. -/
def load (text : Text) : Except Fault Value := do
  match ← Node.ofTokens? (← tokens? text) with
  | none => return .null
  | some node => node.value

end LocalizedSite.Yaml
