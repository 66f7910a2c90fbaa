import LocalizedSite.Config.Setting
import LocalizedSite.Yaml.Document

/-!
# Reading a configuration

`ofValue` reads a configuration from the value of its file: first the locales and the source locale,
then the pages, then the other settings in a fixed order, so that of several faults the first in this
order is reported. `load` reads it from a file; the directories are taken relative to that of the
file.
-/

namespace LocalizedSite.Config

open Yaml

/-- The settings that every locale must have. -/
def requiredLocaleSettings : List String :=
  ["og_locale", "html_lang", "name"]

/-- Read a locale. -/
def locale (code : Text) (group : Group) : Except ConfigFault Locale :=
  let missing := requiredLocaleSettings.filter fun name ↦ (Value.field group name).isEmptyValue
  if !missing.isEmpty then
    .error (.setting (.localeIncomplete code (missing.map String.toList)))
  else
    let htmlLang := (Value.field group "html_lang").toText
    let pathValue := (Value.find? group "path_prefix".toList).getD (.text (code ++ ['/']))
    let given := fun (name : String) (default : Text) ↦
      let value := Value.field group name
      if value.isEmptyValue then default else value.toText
    .ok {
      code
      pathPrefix := pathPrefix pathValue
      ogLocale := (Value.field group "og_locale").toText
      htmlLang
      hreflang := given "hreflang" htmlLang
      name := (Value.field group "name").toText
      flag := textOr group "flag" []
      languageName := optionalText (Value.field group "language_name")
      instructions := given "instructions" [] }

/-- Read the locales that are listed, after those read so far. -/
def localesFrom (locales : Entries Locale) : List (Value × Value) →
    Except ConfigFault (Entries Locale)
  | [] => .ok locales
  | (key, value) :: entries =>
    match value.entries? with
    | some group => do
      let found ← locale key.keyText group
      localesFrom (Entries.put locales key.keyText found) entries
    | none => .error (.setting (.localeNotMapping key.keyText))

/-- Read the locales. -/
def localesOf (value : Value) : Except ConfigFault (Entries Locale) :=
  match value.entries? with
  | some (entry :: entries) => localesFrom [] (entry :: entries)
  | _ => .error (.setting .noLocales)

/-- Read a page, given its number in the list. -/
def page (number : Nat) (value : Value) : Except ConfigFault Page :=
  match value.entries? with
  | some group =>
    let field := fun name ↦ optionalText (Value.field group name)
    match field "key", field "template" with
    | some key, some template =>
      .ok ⟨key, withoutSlashes template, withoutSlashes ((field "output").getD template),
        (field "redirect_to").map withoutSlashes⟩
    | _, _ => .error (.setting (.pageIncomplete number))
  | none => .error (.setting (.pageNotMapping number))

/-- Read the pages of a list from a number on, after those read so far. -/
def pagesFrom (pages : List Page) (number : Nat) : List Value → Except ConfigFault (List Page)
  | [] => .ok pages
  | value :: values => do
    let found ← page number value
    if pages.any fun other ↦ other.key == found.key then
      throw (.setting (.repeatedPage found.key))
    pagesFrom (pages ++ [found]) (number + 1) values

/-- Read the pages. -/
def pagesOf (value : Value) : Except ConfigFault (List Page) :=
  match value with
  | .sequence (item :: items) => pagesFrom [] 1 (item :: items)
  | _ => .error (.setting .noPages)

/-- Read the address of the site. -/
def baseUrlOf (value : Value) : Except ConfigFault Text :=
  match optionalText value with
  | some text => .ok (Text.trimEndWhere (· == '/') text)
  | none => .error (.setting .noBaseUrl)

/-- Read a vocabulary: labels are added to the standard ones, and classes replace them. -/
def vocabularyOf (value : Value) : Except ConfigFault Extract.Vocabulary := do
  let group ← groupOf value
  let base := Extract.Vocabulary.standard
  let added := fun (name : String) (known : Entries Text) ↦
    (labels name (Value.field group name)).map (Entries.putAll known)
  let replaced := fun (name : String) (known : List Text) ↦
    match Value.find? group name.toList with
    | some value => textList value
    | none => known
  let navLabels ← added "nav_labels" base.navLabels
  let sharedButtons ← added "shared_buttons" base.sharedButtons
  let footerHeadings ← added "footer_headings" base.footerHeadings
  let footerLinks ← added "footer_links" base.footerLinks
  let regionNames ← added "region_names" base.regionNames
  return { navLabels, sharedButtons, footerHeadings, footerLinks, regionNames
           spanClasses := replaced "span_classes" base.spanClasses
           divClasses := replaced "div_classes" base.divClasses
           linkClasses := replaced "link_classes" base.linkClasses }

/-- Read the greatest length of a reply. -/
def maxTokensOf (group : Group) (default : Int) : Except ConfigFault Int :=
  match Value.find? group "max_tokens".toList with
  | none => .ok default
  | some value => (integerOf value).mapError .integer

/-- Read the settings of the translation service. -/
def translationOf (value : Value) : Except ConfigFault Translate.Settings := do
  let group ← groupOf value
  let base := Translate.Settings.standard
  return {
    model := textOr group "model" base.model
    endpoint := textOr group "endpoint" base.endpoint
    keyVariable := textOr group "api_key_env" base.keyVariable
    maxTokens := ← maxTokensOf group base.maxTokens
    siteDescription := textOr group "site_description" base.siteDescription
    protectedTerms := textList (Value.field group "protected_terms") }

/-- Find the source locale. -/
def sourceOf (site : Group) (locales : Entries Locale) : Except ConfigFault Locale :=
  let code := textOr site "source_locale" "en".toList
  match Entries.get? locales code with
  | some locale => .ok locale
  | none => .error (.setting (.unknownSource code))

/-- Read a configuration from the groups of its settings. -/
def ofGroups (root : FilePath) (groups : Group) : Except ConfigFault Config := do
  let locales ← localesOf (Value.field groups "locales")
  let site ← groupOf (Value.field groups "site")
  let source ← sourceOf site locales
  let pages ← pagesOf (Value.field groups "pages")
  let setting := Value.field site
  return {
    baseUrl := ← baseUrlOf (setting "base_url")
    brandName := (optionalText (setting "brand_name")).getD []
    source, locales, pages
    vocabulary := ← vocabularyOf (Value.field groups "extraction")
    sourceDirectory := directory root (setting "source_dir") "."
    templatesDirectory := directory root (setting "templates_dir") "src/templates"
    localesDirectory := directory root (setting "locales_dir") "src/locales"
    outputDirectory := directory root (setting "output_dir") "dist"
    staticFiles := textList (setting "static_files")
    staticDirectories := textList (setting "static_dirs")
    hiddenPages := textList (setting "noindex_pages")
    exemptPages := textList (setting "hreflang_exempt")
    translation := ← translationOf (Value.field groups "translation") }

/-- Read a configuration from the value of its file. -/
def ofValue (root : FilePath) (value : Value) : Except ConfigFault Config :=
  if value.isEmptyValue then ofGroups root []
  else
    match value.entries? with
    | some groups => ofGroups root groups
    | none => .error .notMapping

/-- Read a configuration from a file. -/
def load (tree : FileTree) (path : FilePath) : Except ConfigFault Config := do
  if (tree.at? path).isNone then throw (.noFile path.text)
  let text ← (tree.readText path).mapError .file
  let value ← (Yaml.load text).mapError .yaml
  ofValue path.parent value

end LocalizedSite.Config
