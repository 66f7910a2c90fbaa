import LocalizedSite.Extract.Key
import LocalizedSite.Placeholder
import LocalizedSite.Text.Slot

/-!
# Harvest

What the extraction of one page has gathered so far: the counts from which keys are made, the texts
of the page, the texts that all pages share, and the record of every text taken. A page text replaces
an earlier one under its key, and a shared text yields to an earlier one. A pass rewrites the document
and adds to the harvest.
-/

namespace LocalizedSite.Extract

/-- The scope of the texts that all pages share. -/
def sharedScope : Text := "shared".toList

/-- Where a text is kept: with the page's own texts or with those that all pages share. -/
inductive Keeping where
  | own
  | shared
deriving DecidableEq, Repr

/-- A text that was taken from a page and replaced by the reference to it. -/
structure Taking where
  /-- Where the text is kept. -/
  keeping : Keeping
  /-- The key under which it is kept. -/
  key : Text
  /-- The text. -/
  text : Text
deriving DecidableEq, Repr

/-- The texts gathered from a page. -/
structure Harvest where
  /-- The scope of the page's own texts. -/
  scope : Text
  /-- The keys given out by category. -/
  counts : KeyCounts
  /-- The page's own texts. -/
  page : Entries Text
  /-- The texts for the shared scope. -/
  shared : Entries Text
  /-- Every text taken, last first. -/
  taken : List Taking
deriving DecidableEq, Repr

namespace Harvest

/-- The harvest of a page from which nothing was taken. -/
def empty (scope : Text) : Harvest := ⟨scope, [], [], [], []⟩

/-- Take a text of the page under a key and give the reference to it. -/
def addPage (harvest : Harvest) (key value : Text) : Text × Harvest :=
  (Reference.text ⟨harvest.scope, key⟩,
    { harvest with
      page := Entries.put harvest.page key value
      taken := ⟨.own, key, value⟩ :: harvest.taken })

/-- Take a shared text under a key and give the reference to it. -/
def addShared (harvest : Harvest) (key value : Text) : Text × Harvest :=
  (Reference.text ⟨sharedScope, key⟩,
    { harvest with
      shared := Entries.putNew harvest.shared key value
      taken := ⟨.shared, key, value⟩ :: harvest.taken })

/-- Take a text of the page under the next key of a category and give the reference to it. -/
def addNumbered (harvest : Harvest) (category value : Text) : Text × Harvest :=
  let (key, counts) := harvest.counts.next category
  addPage { harvest with counts } key value

end Harvest

/-- A rewriting of the document that may take texts from it. -/
abbrev Pass := Harvest → Text → Text × Harvest

/-- What to put in place of a slot's content, if anything. -/
abbrev Choice := Harvest → Text → Option (Text × Harvest)

/-- Rewrite the first slot. -/
def rewriteFirst (recognize : Recognizer Slot) (choose : Choice) : Pass := fun harvest text ↦
  match recognize.first? text with
  | none => (text, harvest)
  | some (before, slot, following) =>
    match choose harvest slot.content with
    | none => (text, harvest)
    | some (content, harvest) => (before ++ slot.withContent content ++ following, harvest)

/-- Rewrite one of several slots. -/
def rewriteSlot (choose : Choice) (harvest : Harvest) (slot : Slot) : Text × Harvest :=
  match choose harvest slot.content with
  | none => (slot.text, harvest)
  | some (content, harvest) => (slot.withContent content, harvest)

/-- Rewrite every slot, in order. -/
def rewriteEach (recognize : Recognizer Slot) (choose : Choice) : Pass := fun harvest text ↦
  (Cuts.all recognize text).rewrite (rewriteSlot choose) harvest

/-- Passes one after another. -/
def inOrder (passes : List Pass) : Pass := fun harvest text ↦
  passes.foldl (fun (text, harvest) pass ↦ pass harvest text) (text, harvest)

/-- Whether a text is literal content: not blank, and without a placeholder. -/
def isLiteral (text : Text) : Bool :=
  !(Text.trim text).isEmpty && !Placeholder.occursIn text

/-- Replace every occurrence of a literal by its shared text's reference between two pieces. -/
def shareLiteral (opening label closing key : Text) : Pass := fun harvest text ↦
  let literal := opening ++ label ++ closing
  if Text.contains text literal then
    let (reference, harvest) := harvest.addShared key label
    (Text.replaceAll literal (opening ++ reference ++ closing) text, harvest)
  else (text, harvest)

end LocalizedSite.Extract
