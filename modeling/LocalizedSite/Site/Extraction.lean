import LocalizedSite.Config.Basic
import LocalizedSite.Dictionary.Merge
import LocalizedSite.Extract.Page
import LocalizedSite.Site.Action

/-!
# Extracting a site

Every authored page becomes a template, written as soon as it is made. When all pages are done, their
texts are merged into the source dictionary and the dictionary is saved. A page without an authored file
is skipped.
-/

namespace LocalizedSite

namespace Config

/-- The authored file of a page. -/
def authoredPath (config : Config) (page : Page) : FilePath :=
  config.sourceDirectory.joinText page.output

/-- The template of a page. -/
def templatePath (config : Config) (page : Page) : FilePath :=
  config.templatesDirectory.joinText page.template

/-- The store of the site's dictionaries. -/
def store (config : Config) : Store :=
  .fresh config.localesDirectory config.source.code

end Config

namespace Site

/-- What an extraction did. -/
structure ExtractionReport where
  /-- The templates that were written. -/
  templates : List FilePath
  /-- The pages without an authored file. -/
  skipped : List Text
  /-- The file of the source dictionary. -/
  dictionary : FilePath
  /-- The number of texts in the source dictionary. -/
  entryCount : Nat
deriving DecidableEq, Repr

/-- What was extracted so far. -/
structure ExtractedPages where
  /-- The templates that were written. -/
  templates : List FilePath
  /-- The pages without an authored file. -/
  skipped : List Text
  /-- The texts of the pages. -/
  texts : Entries Dictionary.PageTexts

/-- Extract one page and write its template. -/
def extractPage (config : Config) (done : ExtractedPages) (page : Page) :
    SiteAction ExtractedPages := do
  let authored := config.authoredPath page
  if !(← SiteAction.look (·.isFile authored)) then
    return { done with skipped := done.skipped ++ [page.key] }
  let html ← SiteAction.read (·.readText authored)
  match Extract.extractPage? page config.vocabulary config.brandName html with
  | none => throw .rejectedPage
  | some result =>
    let template := config.templatePath page
    SiteAction.writeText template result.template
    return { done with
      templates := done.templates ++ [template]
      texts := Entries.put done.texts page.key ⟨result.page, result.shared⟩ }

/-- Merge texts of pages into the source dictionary and save it. -/
def saveTexts (config : Config) (texts : Entries Dictionary.PageTexts) : SiteAction Dictionary := do
  let (existing, store) ← SiteAction.ofExcept .store (config.store.source (← get))
  let merged := Dictionary.merge existing texts config.source.header config.pageKeys
  let (tree, _) ← SiteAction.ofExcept .file (store.save (← get) config.source.code merged)
  set tree
  return merged

/-- Extract pages of a site; all of them if none is named. -/
def extract (config : Config) (pages : List Page) : SiteAction ExtractionReport := do
  let pages := if pages.isEmpty then config.pages else pages
  let done ← pages.foldlM (extractPage config) ⟨[], [], []⟩
  let merged ← saveTexts config done.texts
  return ⟨done.templates, done.skipped, config.store.path config.source.code,
    Dictionary.entryCount merged⟩

end Site

end LocalizedSite
