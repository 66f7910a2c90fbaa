import LocalizedSite.Extract.Vocabulary
import LocalizedSite.Files.Path
import LocalizedSite.Locale
import LocalizedSite.Page
import LocalizedSite.Render.Registry
import LocalizedSite.Translate.Service

/-!
# The configuration of a site

The pages and locales of a site in their order, the directories in which its files stand, and the
settings of extraction, verification and translation. The source locale is one of the locales.
-/

namespace LocalizedSite

/-- The configuration of a site. -/
structure Config where
  /-- The address of the site, without a slash at its end. -/
  baseUrl : Text
  /-- The name of the brand, which extraction leaves alone. -/
  brandName : Text
  /-- The locale in which the site is written. -/
  source : Locale
  /-- The locales by code, in order. -/
  locales : Entries Locale
  /-- The pages in order. -/
  pages : List Page
  /-- What extraction knows. -/
  vocabulary : Extract.Vocabulary
  /-- Where the authored pages stand. -/
  sourceDirectory : FilePath
  /-- Where the templates stand. -/
  templatesDirectory : FilePath
  /-- Where the dictionaries stand. -/
  localesDirectory : FilePath
  /-- Where the built site stands. -/
  outputDirectory : FilePath
  /-- The files that are copied into the built site. -/
  staticFiles : List Text
  /-- The directories that are copied into the built site. -/
  staticDirectories : List Text
  /-- The keys of the pages that search engines must not index. -/
  hiddenPages : List Text
  /-- The keys of the pages whose links to other versions are not checked. -/
  exemptPages : List Text
  /-- The settings of the translation service. -/
  translation : Translate.Settings
deriving DecidableEq, Repr

namespace Config

/-- The registry of the locales. -/
def registry (config : Config) : Render.Registry :=
  .ofAddress config.baseUrl (config.locales.map Prod.snd) config.source

/-- A page by its key. -/
def page? (config : Config) (key : Text) : Option Page :=
  config.pages.find? fun page ↦ page.key == key

/-- The keys of the pages in order. -/
def pageKeys (config : Config) : List Text :=
  config.pages.map Page.key

/-- The wording of a request for a page that does not exist. -/
def unknownPageMessage (config : Config) (key : Text) : Text :=
  "Unknown page '".toList ++ key ++ "'. Known pages: ".toList ++
    Text.joinWith ", ".toList config.pageKeys

/-- The codes of a list that are no locale of the site. -/
def unknownCodes (config : Config) (codes : List Text) : List Text :=
  codes.filter fun code ↦ !Entries.has config.locales code

/-- The locales with the given codes in the order of the site, or all if no code is given. The error
case has the codes that are no locale. -/
def selectLocales (config : Config) (codes : List Text) : Except (List Text) (List Locale) :=
  let unknown := config.unknownCodes codes
  if codes.isEmpty then .ok (config.locales.map Prod.snd)
  else if unknown.isEmpty then
    .ok ((config.locales.filter fun (code, _) ↦ codes.contains code).map Prod.snd)
  else .error unknown

/-- The wording of codes that are no locale. -/
def unknownLocalesMessage (codes : List Text) : Text :=
  "Unknown locale(s): ".toList ++ Text.joinWith ", ".toList codes

/-- Whether the links of a page to its other versions are not checked. -/
def isExempt (config : Config) (page : Page) : Bool :=
  page.isRedirect || config.exemptPages.contains page.key

end Config

end LocalizedSite
