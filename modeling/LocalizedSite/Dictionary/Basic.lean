import LocalizedSite.Json.Basic

/-!
# Dictionaries

A dictionary holds scopes by name, and a scope holds texts by key. Since dictionaries are files that
people edit, a scope may turn out not to be an object and a value not to be a text; both then count
as absent. One scope describes the locale itself and is never translated.
-/

namespace LocalizedSite

/-- A dictionary: scopes by name, in order. -/
abbrev Dictionary := Entries Json

namespace Dictionary

/-- The name of the scope that describes the locale. -/
def headerName : Text := "_meta".toList

/-- The members of a scope. -/
def scope? (dictionary : Dictionary) (name : Text) : Option (Entries Json) :=
  (Entries.get? dictionary name).bind Json.members?

/-- The text of an entry. -/
def text? (dictionary : Dictionary) (scope key : Text) : Option Text :=
  (dictionary.scope? scope).bind fun members ↦ (Entries.get? members key).bind Json.string?

/-- The scopes that hold texts to translate, in order. -/
def translatableScopes (dictionary : Dictionary) : List Text :=
  (dictionary.filter fun (name, value) ↦ name != headerName && value.members?.isSome).map Prod.fst

/-- A scope that holds the given texts. -/
def ofTexts (texts : Entries Text) : Json :=
  .object (Entries.mapValues .string texts)

end Dictionary

end LocalizedSite
