import LocalizedSite.Site.Build
import LocalizedSite.Verify.Page

/-!
# Verifying a site

`verify` runs all checks on a built site and gives their findings in a fixed order. It changes nothing;
it stops at a file that is no text or at a document that is rejected.
-/

namespace LocalizedSite.Verify

open Html

/-- A place below the output directory. -/
def outputFile (config : Config) (place : Text) : FilePath :=
  config.outputDirectory.joinText place

/-- The text of a file. -/
def readText (tree : FileTree) (path : FilePath) : Except SiteFault Text :=
  (tree.readText path).mapError .file

/-- The document of a text. -/
def parseDocument (text : Text) : Except SiteFault (List Node) :=
  match document? text with
  | some document => .ok document
  | none => .error .rejectedDocument

/-- The built page with a locale, if its file exists; otherwise the error that it is missing. -/
def pageFile (config : Config) (tree : FileTree) (locale : Locale) (page : Page) :
    Except SiteFault (Except Diagnostic PageFile) := do
  let place := locale.pathPrefix ++ page.output
  let path := outputFile config place
  if tree.isFile path then
    return .ok ⟨page, locale, place, ← readText tree path⟩
  else return .error (errorIn .completeness place ("Missing: ".toList ++ place))

/-- The findings about the completeness of a locale, and its built pages. -/
def checkLocale (config : Config) (tree : FileTree) (locale : Locale) :
    Except SiteFault (List Diagnostic × List PageFile) := do
  let looked ← config.pages.mapM (pageFile config tree locale)
  let files := looked.filterMap Except.toOption
  let missing := looked.filterMap fun
    | .ok _ => none
    | .error diagnostic => some diagnostic
  let total := config.pages.length
  let summary :=
    locale.code ++ ": ".toList ++ Text.ofNat files.length ++ '/' :: counted total " files"
  return (missing ++ (if files.length = total then [passed .completeness summary] else []), files)

/-- Check that every page is there in some locales, and give the built pages. -/
def checkCompleteness (config : Config) (tree : FileTree) (locales : List Locale) :
    Except SiteFault (List Diagnostic × List PageFile) := do
  let found ← locales.mapM (checkLocale config tree)
  return (found.flatMap Prod.fst, found.flatMap Prod.snd)

/-- A built page with its document. -/
def withDocument (file : PageFile) : Except SiteFault PageDocument := do
  return { file with document := ← parseDocument file.text }

/-- The name under which an entry of the sitemap is reported: its address, if it has one. -/
def entryName (entry : Element) : Text :=
  match (elementsOf entry.children).find? fun element ↦ element.named "loc" with
  | some element => proseOf element.children
  | none => ['?']

/-- Whether an entry of the sitemap links to no version of its page. -/
def isBare (entry : Element) : Bool :=
  !(elementsOf entry.children).any fun element ↦ element.named "xhtml:link"

/-- The finding about the number of entries of the sitemap. -/
def checkEntryCount (entries pages locales : Nat) : Diagnostic :=
  let expected := pages * locales
  let count := "Sitemap: ".toList ++ counted entries " URLs ("
  if entries = expected then
    passed .sitemap (count ++ counted pages " pages x " ++ counted locales " locales)")
  else ⟨.sitemap, .warning, count ++ "expected ".toList ++ counted expected ")", none⟩

/-- The findings about the links of the entries of the sitemap. -/
def checkEntries (entries : List Element) : List Diagnostic :=
  let bare := entries.filter isBare
  if bare.isEmpty then
    if entries.isEmpty then []
    else [passed .sitemap "Every sitemap entry has xhtml:link alternates".toList]
  else
    bare.map fun entry ↦
      ⟨.sitemap, .error,
        "Sitemap entry ".toList ++ entryName entry ++ " has no xhtml:link alternates".toList, none⟩

/-- Whether a locale has a home page. -/
def hasIndex (config : Config) (tree : FileTree) (locale : Locale) : Bool :=
  tree.isFile ((config.outputDirectory.joinText locale.pathPrefix).joinText Page.indexName)

/-- Check the sitemap. -/
def checkSitemap (config : Config) (tree : FileTree) (locales : List Locale) :
    Except SiteFault (List Diagnostic) := do
  let path := outputFile config Site.sitemapName
  if !tree.isFile path then
    return [⟨.sitemap, .error, Site.sitemapName ++ " not found".toList, none⟩]
  let document ← parseDocument (← readText tree path)
  let entries := (elementsOf document).filter fun element ↦ element.named "url"
  let indexed := locales.filter (hasIndex config tree)
  return checkEntryCount entries.length config.pages.length indexed.length :: checkEntries entries

/-- The references of a template, each once, whose text is missing or empty in the source
dictionary. -/
def missingReferences (source : Dictionary) (template : Text) : List Reference :=
  (Reference.all template).eraseDups.filter fun reference ↦
    (source.text? reference.scope reference.key).all List.isEmpty

/-- Check the references of the template of a page, if it has one. -/
def checkTemplate (config : Config) (tree : FileTree) (source : Dictionary) (page : Page) :
    Except SiteFault (List Diagnostic) := do
  let path := config.templatePath page
  if !tree.isFile path then return []
  let template ← readText tree path
  return (missingReferences source template).map fun reference ↦
    errorIn .keySurface page.template
      (page.template ++ ": ".toList ++ reference.text ++
        " missing from source dictionary".toList)

/-- Check that templates refer only to texts that exist. -/
def checkReferences (config : Config) (tree : FileTree) : Except SiteFault (List Diagnostic) := do
  let store := config.store
  if !store.hasFile tree config.source.code then
    return [⟨.keySurface, .warning, "Source dictionary not found; skipped".toList, none⟩]
  match store.source tree with
  | .error fault =>
    match fault.message? with
    | some message => return [⟨.keySurface, .error, message, none⟩]
    | none => throw (.store fault)
  | .ok (source, _) =>
    let found ← config.pages.mapM (checkTemplate config tree source)
    return orPassed .keySurface "All template keys exist in the source dictionary" found.flatten

/-- Verify a site in the locales with the given codes; in all if there are none. -/
def verify (config : Config) (tree : FileTree) (codes : List Text) :
    Except SiteFault (List Diagnostic) := do
  let locales ← (config.selectLocales codes).mapError .unknownLocales
  let (completeness, files) ← checkCompleteness config tree locales
  let documents ← files.mapM withDocument
  let sitemap ← checkSitemap config tree locales
  let links ← (checkLinks tree config.outputDirectory documents).mapError .link
  let references ← checkReferences config tree
  return completeness ++ checkPlaceholders files ++ checkUndefined documents ++
    checkLanguage documents ++ checkVersions config documents ++ sitemap ++ links ++
    checkHidden config documents ++ references

end LocalizedSite.Verify
