import LocalizedSite.Text.Basic

/-!
# Named entries in order

A list of named values in the order in which the names first came. A name stands at most once:
`put` changes the value of a name in its place or adds the name at the end, and `putNew` adds a
name only if it is absent.
-/

namespace LocalizedSite

/-- Values under names, in the order in which the names first came. -/
abbrev Entries (α : Type) := List (Text × α)

namespace Entries

variable {α β : Type}

/-- The value under a name. -/
def get? (entries : Entries α) (name : Text) : Option α :=
  List.lookup name entries

/-- Whether a name is present. -/
def has (entries : Entries α) (name : Text) : Bool :=
  (get? entries name).isSome

/-- The names in order. -/
def names (entries : Entries α) : List Text :=
  entries.map Prod.fst

/-- Set the value of a name, in its place if it is present and at the end otherwise. -/
def put : Entries α → Text → α → Entries α
  | [], name, value => [(name, value)]
  | (found, old) :: others, name, value =>
    if found = name then (found, value) :: others else (found, old) :: put others name value

/-- Add a name at the end unless it is present. -/
def putNew (entries : Entries α) (name : Text) (value : α) : Entries α :=
  if has entries name then entries else entries ++ [(name, value)]

/-- Put every entry of a list, in order. -/
def putAll (entries : Entries α) (added : List (Text × α)) : Entries α :=
  added.foldl (fun result (name, value) ↦ put result name value) entries

/-- Add every entry of a list whose name is not yet present, in order. -/
def putAllNew (entries : Entries α) (added : List (Text × α)) : Entries α :=
  added.foldl (fun result (name, value) ↦ putNew result name value) entries

/-- The entries of a list of pairs: a repeated name has its last value at its first place. -/
def ofList (pairs : List (Text × α)) : Entries α :=
  putAll [] pairs

/-- Remove a name. -/
def erase (entries : Entries α) (name : Text) : Entries α :=
  entries.filter fun entry ↦ entry.1 != name

/-- Change every value. -/
def mapValues (change : α → β) (entries : Entries α) : Entries β :=
  entries.map fun (name, value) ↦ (name, change value)

end Entries

end LocalizedSite
