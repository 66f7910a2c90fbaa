import LocalizedSite.Dictionary.Basic
import LocalizedSite.Extract.Harvest
import LocalizedSite.Text.Quoted

/-!
# Merging extracted texts into the source dictionary

Page texts replace the earlier ones under their keys, shared texts yield to them, and nothing that is
a scope already is dropped. The header comes first, then the shared scope, the registered pages in
order, and the other scopes.
-/

namespace LocalizedSite.Dictionary

/-- The texts taken from one page. -/
structure PageTexts where
  /-- The page's own texts. -/
  page : Entries Text
  /-- The texts for the shared scope. -/
  shared : Entries Text

/-- The scopes of a dictionary that are objects, apart from the header. -/
def scopes (dictionary : Dictionary) : Entries (Entries Json) :=
  dictionary.filterMap fun (name, value) ↦
    if name = headerName then none else value.members?.map (name, ·)

/-- The members of a scope, none if it is absent. -/
def membersOf (all : Entries (Entries Json)) (name : Text) : Entries Json :=
  (Entries.get? all name).getD []

/-- Add the texts of one page: its own texts to its scope, then the shared ones to the shared
scope. -/
def addPageTexts (all : Entries (Entries Json)) (key : Text) (texts : PageTexts) :
    Entries (Entries Json) :=
  let own := Entries.putAll (membersOf all key) (Entries.mapValues .string texts.page)
  let all := Entries.put all key own
  let shared := Entries.putAllNew (membersOf all Extract.sharedScope)
    (Entries.mapValues .string texts.shared)
  Entries.put all Extract.sharedScope shared

/-- Put scopes into their order in the file. -/
def orderScopes (header : Entries Text) (pageOrder : List Text) (all : Entries (Entries Json)) :
    Dictionary :=
  let first : Dictionary :=
    [(headerName, ofTexts header),
      (Extract.sharedScope, .object (membersOf all Extract.sharedScope))]
  let paged := pageOrder.foldl (fun ordered key ↦
    match Entries.get? all key with
    | some members => Entries.put ordered key (.object members)
    | none => ordered) first
  Entries.putAllNew paged (Entries.mapValues .object all)

/-- Merge the texts of pages into a dictionary. -/
def merge (existing : Dictionary) (results : Entries PageTexts) (header : Entries Text)
    (pageOrder : List Text) : Dictionary :=
  let all := scopes existing
  let all := Entries.putNew all Extract.sharedScope []
  let all := results.foldl (fun all (key, texts) ↦ addPageTexts all key texts) all
  orderScopes header pageOrder all

/-- The number of entries outside of the header. -/
def entryCount (dictionary : Dictionary) : Nat :=
  ((dictionary.filter fun (name, _) ↦ name != headerName).map fun (_, value) ↦
    (value.members?.getD []).length).foldr (· + ·) 0

end LocalizedSite.Dictionary
