import LocalizedSite.Render.Page
import LocalizedSite.Render.Sitemap
import LocalizedSite.Site.Extraction

/-!
# Building a site

A build reads the dictionaries once, empties the output directory, renders every page that has a
template in every requested locale that has a dictionary, copies the static files, and writes the sitemap.
A robots file gets a line that names the sitemap, unless it has one.
-/

namespace LocalizedSite.Site

/-- A page that was built. -/
structure BuiltPage where
  /-- The key of the page. -/
  key : Text
  /-- The code of the locale. -/
  code : Text
  /-- The file of the page. -/
  path : FilePath
  /-- The page as it was rendered. -/
  rendering : Render.Rendering
deriving DecidableEq, Repr

/-- What a build did. -/
structure BuildReport where
  /-- The locales that were built. -/
  locales : List Text
  /-- The requested locales without a dictionary. -/
  skippedLocales : List Text
  /-- The pages without a template. -/
  missingTemplates : List Text
  /-- The pages that were built. -/
  pages : List BuiltPage
  /-- The file of the sitemap. -/
  sitemap : FilePath
deriving DecidableEq, Repr

/-- The file name of the sitemap. -/
def sitemapName : Text := "sitemap.xml".toList

/-- The file name of the directives for search engines. -/
def robotsName : Text := "robots.txt".toList

/-- The file of a page in a locale. -/
def outputPath (config : Config) (page : Page) (locale : Locale) : FilePath :=
  (config.outputDirectory.joinText locale.pathPrefix).joinText page.output

/-- Make the output directory anew; what stands in it goes before the directory itself. -/
def cleanOutput (config : Config) : SiteAction Unit := do
  let output := config.outputDirectory
  if ← SiteAction.look fun tree ↦ (tree.at? output).isSome then
    SiteAction.change (·.emptyDirectory output)
    SiteAction.change (·.removeDirectory output)
  SiteAction.change (·.makeDirectories output)

/-- The templates of pages by page, and the pages without one. -/
structure Templates where
  /-- The texts of the templates with their pages. -/
  found : List (Page × Text)
  /-- The keys of the pages without a template. -/
  missing : List Text

/-- Read the template of a page. -/
def readTemplate (config : Config) (templates : Templates) (page : Page) : SiteAction Templates := do
  let path := config.templatePath page
  if ← SiteAction.look (·.isFile path) then
    let text ← SiteAction.read (·.readText path)
    return { templates with found := templates.found ++ [(page, text)] }
  else return { templates with missing := templates.missing ++ [page.key] }

/-- Build a page in a locale. -/
def buildPage (config : Config) (locale : Locale) (dictionaries : Render.Dictionaries)
    (page : Page) (template : Text) : SiteAction BuiltPage := do
  let rendering := Render.renderPage config.registry page locale dictionaries template
  let path := outputPath config page locale
  SiteAction.writeText path rendering.text
  return ⟨page.key, locale.code, path, rendering⟩

/-- Build every page in a locale. -/
def buildLocale (config : Config) (source : Dictionary) (templates : List (Page × Text))
    (locale : Locale) (dictionary : Dictionary) : SiteAction (List BuiltPage) :=
  templates.mapM fun (page, template) ↦
    buildPage config locale ⟨dictionary, source⟩ page template

/-- Copy a static file, if it exists. -/
def copyStaticFile (config : Config) (name : Text) : SiteAction Unit := do
  let source := config.sourceDirectory.joinText name
  let target := config.outputDirectory.joinText name
  if ← SiteAction.look (·.isFile source) then
    SiteAction.change (·.makeDirectories target.parent)
    SiteAction.change (·.copyFile source target)

/-- Copy a static directory, if it exists. -/
def copyStaticDirectory (config : Config) (name : Text) : SiteAction Unit := do
  let source := config.sourceDirectory.joinText name
  if ← SiteAction.look (·.isDirectory source) then
    SiteAction.change (·.copyDirectory source (config.outputDirectory.joinText name))

/-- The mark of a line that names a sitemap. -/
def sitemapMark : Text := "Sitemap:".toList

/-- Name the sitemap in the robots file, if there is one that names none. -/
def nameSitemap (config : Config) : SiteAction Unit := do
  let path := config.outputDirectory.joinText robotsName
  if ← SiteAction.look (·.isFile path) then
    let text ← SiteAction.read (·.readText path)
    if !Text.contains text sitemapMark then
      let line := '\n' :: sitemapMark ++ ' ' :: config.baseUrl ++ '/' :: sitemapName ++ ['\n']
      SiteAction.change (·.write path (.text (text ++ line)))

/-- The dictionaries of the requested locales and of the source. -/
def readDictionaries (config : Config) (requested : List Locale) :
    SiteAction (Entries Dictionary) := do
  let codes := requested.map Locale.code ++ [config.source.code]
  let (found, _) := config.store.snapshot (← get) codes
  SiteAction.ofExcept .store found

/-- The requested locales that have a dictionary, with it. -/
def withDictionary (dictionaries : Entries Dictionary) (requested : List Locale) :
    List (Locale × Dictionary) :=
  requested.filterMap fun locale ↦ (Entries.get? dictionaries locale.code).map (locale, ·)

/-- Write the site anew in the requested locales that have a dictionary. -/
def publish (config : Config) (requested : List Locale) (dictionaries : Entries Dictionary)
    (today : Text) : SiteAction BuildReport := do
  cleanOutput config
  let source := (Entries.get? dictionaries config.source.code).getD []
  let built := withDictionary dictionaries requested
  let templates ← config.pages.foldlM (readTemplate config) ⟨[], []⟩
  let pages ← built.mapM fun (locale, dictionary) ↦
    buildLocale config source templates.found locale dictionary
  config.staticFiles.forM (copyStaticFile config)
  config.staticDirectories.forM (copyStaticDirectory config)
  let locales := built.map Prod.fst
  let sitemap := config.outputDirectory.joinText sitemapName
  let entries :=
    Render.sitemapEntries config.registry config.hiddenPages today config.pages locales
  SiteAction.writeText sitemap (Render.sitemapText entries)
  nameSitemap config
  let skipped := requested.filter fun locale ↦ !Entries.has dictionaries locale.code
  return ⟨locales.map Locale.code, skipped.map Locale.code, templates.missing, pages.flatten,
    sitemap⟩

/-- Build a site in the locales with the given codes; in all if there are none. -/
def build (config : Config) (codes : List Text) (today : Text) : SiteAction BuildReport := do
  let requested ← SiteAction.ofExcept .unknownLocales (config.selectLocales codes)
  let dictionaries ← readDictionaries config requested
  publish config requested dictionaries today

end LocalizedSite.Site
