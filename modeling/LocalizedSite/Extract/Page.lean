import LocalizedSite.Extract.Head
import LocalizedSite.Extract.Frame
import LocalizedSite.Extract.StructuredData
import LocalizedSite.Page

/-!
# Extracting a page

`extractPage?` turns a page into a template and the texts taken from it. The passes run in a fixed
order over the whole document: head, structured data, navigation, body, footer, region popup, and
links. A page that only redirects has no texts, and only its language, canonical link and target are
rewritten.
-/

namespace LocalizedSite.Extract

/-- A template with the texts taken from its page. -/
structure Extraction where
  /-- The page with placeholders in place of its texts. -/
  template : Text
  /-- The page's own texts. -/
  page : Entries Text
  /-- The texts for the shared scope. -/
  shared : Entries Text
deriving DecidableEq, Repr

/-- Whether no text was taken. -/
def Extraction.isUnchanged (extraction : Extraction) : Bool :=
  extraction.page.isEmpty && extraction.shared.isEmpty

/-- Read a link to an absolute path of the site. -/
def recognizeLink : Recognizer Slot := fun text ↦
  (Slot.run "href=\"".toList (· != '"') ['"'] text).filter fun (slot, _) ↦
    Text.startsWith slot.content ['/']

/-- A path of the site with the placeholder of the locale's path in front. -/
def localizedPath (path : Text) : Text :=
  '/' :: Structural.text .localePath ++ path

/-- A link as it stands in a template: links to pages get the locale's path. -/
def templateLink (slot : Slot) : Text :=
  if isPageLink slot.content then slot.withContent (localizedPath (slot.content.drop 1))
  else slot.text

/-- Put the locale's path into every link to a page. -/
def localizeLinks (html : Text) : Text :=
  (Cuts.all recognizeLink html).text templateLink

/-- Take the texts of structured data as texts of the page. -/
def linkedDataTexts : Pass := fun harvest html ↦
  let (html, taken) := scanLinkedData harvest.scope html
  (html, taken.foldl (fun harvest (key, text) ↦ (harvest.addPage key text).2) harvest)

/-- Read the tag that sends the visitor on to a target after some seconds. -/
def recognizeRefresh (target : Text) : Recognizer Slot := fun text ↦ do
  let opening := "<meta http-equiv=\"refresh\" content=\"".toList
  let rest ← Text.after? opening text
  let (seconds, rest) := rest.span Text.isDecimalDigit
  let rest ← Text.after? [';'] rest
  let (blanks, rest) := rest.span Text.isBlank
  let rest ← Text.after? "url=".toList rest
  let rest ← Text.after? ('/' :: target ++ ['"']) rest
  if seconds.isEmpty then none
  else some (⟨opening ++ seconds ++ ';' :: blanks ++ "url=".toList, '/' :: target, ['"']⟩, rest)

/-- Rewrite a page that only redirects. -/
def templateRedirect (target html : Text) : Text :=
  let html := fillLanguage html
  let html := fillFirst recognizeCanonical .canonicalUrl [] html
  let localized := localizedPath target
  let html :=
    match (recognizeRefresh target).first? html with
    | none => html
    | some (before, slot, following) => before ++ slot.withContent localized ++ following
  let link := fun path ↦ "href=\"".toList ++ path ++ ['"']
  Text.replaceFirst (link ('/' :: target)) (link localized) html

/-- Extract a page that is no redirect, or nothing if the document is rejected. -/
def extractContent? (scope : Text) (vocabulary : Vocabulary) (brand html : Text) :
    Option (Text × Harvest) := do
  let (html, harvest) := headTexts (.empty scope) html
  let (html, harvest) := linkedDataTexts harvest (fillHead html)
  let (html, harvest) := navigation vocabulary.navLabels harvest html
  let (html, harvest) ← bodyTexts? vocabulary harvest html
  let (html, harvest) := footer vocabulary brand harvest html
  let (html, harvest) := regionPopup vocabulary harvest html
  return (localizeLinks html, harvest)

/-- Extract a page, or nothing if the document is rejected. -/
def extractPage? (page : Page) (vocabulary : Vocabulary) (brand html : Text) :
    Option Extraction :=
  match page.redirectTo with
  | some target => some ⟨templateRedirect target html, [], []⟩
  | none =>
    (extractContent? page.key vocabulary brand html).map fun (template, harvest) ↦
      ⟨template, harvest.page, harvest.shared⟩

end LocalizedSite.Extract
