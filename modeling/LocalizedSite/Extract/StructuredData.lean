import LocalizedSite.Json.Read
import LocalizedSite.Json.Write
import LocalizedSite.Placeholder
import LocalizedSite.Text.Slot

/-!
# Structured data

Blocks of linked data are JSON inside a script element. The texts of a few fields, at any depth, are
replaced by references numbered within the block; identifiers, dates, addresses, and the names of
brands, people and offers stay. A block that is not JSON or has nothing to extract stays as it is,
and every block counts for the numbering.
-/

namespace LocalizedSite.Extract

/-- Read a block of linked data. -/
def recognizeLinkedData : Recognizer Slot :=
  Slot.between "<script type=\"application/ld+json\">".toList "</script>".toList

/-- The fields that hold text, in the order in which they are numbered. -/
def textFields : List Text :=
  ["description", "reviewBody", "headline", "slogan", "name", "text", "award"].map String.toList

/-- The types of things whose names stay. -/
def namedTypes : List Text :=
  ["Brand", "Organization", "Person", "ImageObject", "Rating", "AggregateRating",
   "AggregateOffer", "Offer", "EducationalOccupationalCredential"].map String.toList

/-- The greatest length of a text that is not extracted. -/
def shortLength : Nat := 10

/-- Whether a text is a date of digits, apart from a line break behind it. -/
def isDate (text : Text) : Bool :=
  let body := text.take 10
  let digits := body.take 4 ++ (body.drop 5).take 2 ++ body.drop 8
  body.length == 10 && digits.all Text.isDecimalDigit && body[4]? == some '-' &&
    body[7]? == some '-' && (text.drop 10 == [] || text.drop 10 == ['\n'])

/-- The types of an object. -/
def entityTypes (members : Entries Json) : List Text :=
  match Entries.get? members "@type".toList with
  | some (.string name) => [name]
  | some (.array items) => items.filterMap Json.string?
  | _ => []

/-- Whether the name of an object stays: it names a brand or the like, or an item of a list that
says more about itself. -/
def keepsName (members : Entries Json) : Bool :=
  let types := entityTypes members
  types.any (namedTypes.contains ·) ||
    (types.contains "ListItem".toList &&
      ((Entries.get? members "item".toList).any fun item ↦ !item.isEmptyValue))

/-- Whether the text of a field is worth translating. -/
def isTranslatable (members : Entries Json) (field value : Text) : Bool :=
  shortLength < value.length && !Placeholder.isAtStart value &&
    !Text.startsWith value "http".toList && !isDate value &&
    !Text.contains value "schema.org".toList &&
    !(field == "name".toList && keepsName members)

/-- The numbering of one block: its key prefix, the number of texts taken, and the texts with their
keys, last first. -/
structure BlockKeys where
  /-- What every key of the block begins with. -/
  beginning : Text
  /-- The number of texts taken so far. -/
  count : Nat
  /-- The texts taken so far under their keys, last first. -/
  taken : List (Text × Text)

/-- Take a text of a field and give its key. -/
def BlockKeys.take (keys : BlockKeys) (field value : Text) : Text × BlockKeys :=
  let number := keys.count + 1
  let key := keys.beginning ++ '_' :: field ++ '_' :: Text.ofNat number
  (key, { keys with count := number, taken := (key, value) :: keys.taken })

/-- Take the texts of an object's own fields; the result names the key for each field taken. -/
def takeFields (members : Entries Json) : BlockKeys → List Text → Entries Text × BlockKeys
  | keys, [] => ([], keys)
  | keys, field :: fields =>
    match (Entries.get? members field).bind Json.string? with
    | some value =>
      if isTranslatable members field value then
        let (key, keys) := keys.take field value
        let (others, keys) := takeFields members keys fields
        ((field, key) :: others, keys)
      else takeFields members keys fields
    | none => takeFields members keys fields

mutual

/-- Replace the texts of a value by references: first those of an object's own fields, then those
inside its members. -/
def templateValue (scope : Text) (keys : BlockKeys) : Json → Json × BlockKeys
  | .array items =>
    let (items, keys) := templateItems scope keys items
    (.array items, keys)
  | .object members =>
    let (taken, keys) := takeFields members keys textFields
    let (members, keys) := templateMembers scope taken keys members
    (.object members, keys)
  | value => (value, keys)

/-- Replace the texts inside the items of an array. -/
def templateItems (scope : Text) (keys : BlockKeys) : List Json → List Json × BlockKeys
  | [] => ([], keys)
  | item :: items =>
    let (item, keys) := templateValue scope keys item
    let (items, keys) := templateItems scope keys items
    (item :: items, keys)

/-- Replace the members taken by references, and the texts inside the others. -/
def templateMembers (scope : Text) (taken : Entries Text) (keys : BlockKeys) :
    List (Text × Json) → List (Text × Json) × BlockKeys
  | [] => ([], keys)
  | (name, value) :: members =>
    let (value, keys) :=
      match Entries.get? taken name with
      | some key => (.string (Reference.text ⟨scope, key⟩), keys)
      | none => templateValue scope keys value
    let (members, keys) := templateMembers scope taken keys members
    ((name, value) :: members, keys)

end

/-- The number of spaces of a level in a block that is written anew. -/
def blockIndent : Nat := 8

/-- The blocks seen so far and the texts taken from them. -/
structure BlockScan where
  /-- The number of blocks seen. -/
  blocks : Nat
  /-- The texts taken under their keys, in order. -/
  taken : List (Text × Text)

/-- Rewrite one block. -/
def rewriteBlock (scope : Text) (scan : BlockScan) (slot : Slot) : Text × BlockScan :=
  let number := scan.blocks + 1
  match Json.parse slot.content with
  | .error _ => (slot.text, { scan with blocks := number })
  | .ok value =>
    let (value, keys) :=
      templateValue scope ⟨"jsonld_".toList ++ Text.ofNat number, 0, []⟩ value
    if keys.taken.isEmpty then (slot.text, { scan with blocks := number })
    else
      let body := "\n    ".toList ++ Json.render blockIndent value ++ "\n    ".toList
      (slot.withContent body, ⟨number, scan.taken ++ keys.taken.reverse⟩)

/-- Put references for the texts in a document's blocks of linked data; the texts come with their
keys in the order in which they were taken. -/
def scanLinkedData (scope html : Text) : Text × List (Text × Text) :=
  let (html, scan) := (Cuts.all recognizeLinkedData html).rewrite (rewriteBlock scope) ⟨0, []⟩
  (html, scan.taken)

/-- Put references for the texts in a document's blocks of linked data; the texts come under their
keys. -/
def extractLinkedData (scope html : Text) : Text × Entries Text :=
  let (html, taken) := scanLinkedData scope html
  (html, Entries.ofList taken)

end LocalizedSite.Extract
