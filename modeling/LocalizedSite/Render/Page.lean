import LocalizedSite.Dictionary.Basic
import LocalizedSite.Extract.StructuredData
import LocalizedSite.Render.Registry

/-!
# Rendering a page

A template is rendered in two steps: the structural placeholders are filled in from the registry,
then every reference is looked up in the locale's dictionary. A reference without a text stays as it
is and is recorded, with the reason. Inside a block of linked data a text is written as the content
of a JSON string, in a form that cannot end the script element.
-/

namespace LocalizedSite.Render

/-- Why a reference has no text. -/
inductive MissingKind where
  /-- The source dictionary has the text, but the locale's dictionary does not. -/
  | translation
  /-- Not even the source dictionary has the text. -/
  | sourceKey
deriving DecidableEq, Repr

/-- The name of a reason. -/
def MissingKind.name : MissingKind → Text
  | .translation => "missing-translation".toList
  | .sourceKey => "missing-source-key".toList

/-- Whether the templates and the source dictionary do not fit together. -/
def MissingKind.isFatal : MissingKind → Bool
  | .translation => false
  | .sourceKey => true

/-- What became of a reference. -/
inductive Resolution where
  | resolved (reference : Reference) (text : Text)
  | unresolved (reference : Reference) (kind : MissingKind)
deriving DecidableEq, Repr

/-- A reference without a text, with the reason. -/
structure Unresolved where
  /-- The reference. -/
  reference : Reference
  /-- Why it has no text. -/
  kind : MissingKind
deriving DecidableEq, Repr

/-- The record of a reference without a text. -/
def Resolution.unresolved? : Resolution → Option Unresolved
  | .resolved _ _ => none
  | .unresolved reference kind => some ⟨reference, kind⟩

/-- A text as it is written inside a JSON string of a script element. -/
def escapeInScript (text : Text) : Text :=
  Text.replaceAll "</".toList "<\\/".toList (Json.escape text)

/-- The dictionaries from which references are resolved. -/
structure Dictionaries where
  /-- The dictionary of the locale. -/
  locale : Dictionary
  /-- The dictionary of the source locale. -/
  source : Dictionary

/-- The resolution of a reference. -/
def Dictionaries.resolve (dictionaries : Dictionaries) (reference : Reference) : Resolution :=
  match dictionaries.locale.text? reference.scope reference.key with
  | some text => .resolved reference text
  | none =>
    match dictionaries.source.text? reference.scope reference.key with
    | some _ => .unresolved reference .translation
    | none => .unresolved reference .sourceKey

/-- What is written for a resolution: the text in the form that its place asks for, or the
reference. -/
def Resolution.written (form : Text → Text) : Resolution → Text
  | .resolved _ text => form text
  | .unresolved reference _ => reference.text

/-- A text with its references resolved, and the resolutions in order. -/
def resolveText (dictionaries : Dictionaries) (form : Text → Text) (text : Text) :
    Text × List Resolution :=
  let cuts := Cuts.all Reference.recognize text
  (cuts.text fun reference ↦ (dictionaries.resolve reference).written form,
    cuts.occurrences.map dictionaries.resolve)

/-- A rendered page with the resolutions of its references. -/
structure Rendering where
  /-- The text of the page. -/
  text : Text
  /-- The resolutions in order. -/
  resolutions : List Resolution
deriving DecidableEq, Repr

/-- The references of a page that have no text. -/
def Rendering.unresolved (rendering : Rendering) : List Unresolved :=
  rendering.resolutions.filterMap Resolution.unresolved?

/-- Render what stands between two blocks of linked data, and the block. -/
def renderBlock (dictionaries : Dictionaries) (before : Text) (slot : Slot) : Rendering :=
  let (markup, outside) := resolveText dictionaries id before
  let (body, inside) := resolveText dictionaries escapeInScript slot.content
  ⟨markup ++ slot.withContent body, outside ++ inside⟩

/-- Resolve the references of a page in which the structural placeholders are filled in. -/
def renderFilled (dictionaries : Dictionaries) (text : Text) : Rendering :=
  let cuts := Cuts.all Extract.recognizeLinkedData text
  let parts := cuts.found.map fun (before, slot) ↦ renderBlock dictionaries before slot
  let (tail, found) := resolveText dictionaries id cuts.tail
  ⟨parts.flatMap Rendering.text ++ tail, parts.flatMap Rendering.resolutions ++ found⟩

/-- Render a template for a page in a locale. -/
def renderPage (registry : Registry) (page : Page) (locale : Locale)
    (dictionaries : Dictionaries) (template : Text) : Rendering :=
  renderFilled dictionaries (registry.fill page locale template)

end LocalizedSite.Render
