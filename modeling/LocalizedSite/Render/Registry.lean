import LocalizedSite.Locale
import LocalizedSite.Page
import LocalizedSite.Placeholder
import LocalizedSite.Render.Markup
import LocalizedSite.Text.LetterCase

/-!
# The registry of locales

All locales of the site, in order, with the site's address and the locale whose pages are the
default. From it follow the address of a page in a locale, the links between the versions of a page,
and the value of every structural placeholder. The links cover the whole registry, not only the
locales that are built.
-/

namespace LocalizedSite.Render

/-- The locales of a site. -/
structure Registry where
  /-- The address of the site, without a slash at its end. -/
  baseUrl : Text
  /-- The locales in order. -/
  locales : List Locale
  /-- The locale in which the site is written. -/
  source : Locale
deriving DecidableEq, Repr

/-- The registry of a site whose address may end in slashes. -/
def Registry.ofAddress (address : Text) (locales : List Locale) (source : Locale) : Registry :=
  ⟨Text.trimEndWhere (· == '/') address, locales, source⟩

/-- A link to a version of a page. -/
structure Alternate where
  /-- The language of the version, or the mark of the default version. -/
  hreflang : Text
  /-- The address of the version. -/
  href : Text
deriving DecidableEq, Repr

/-- The mark of the default version of a page. -/
def defaultLanguage : Text := "x-default".toList

namespace Registry

/-- The address of a page in a locale. -/
def pageUrl (registry : Registry) (page : Page) (locale : Locale) : Text :=
  registry.baseUrl ++ '/' :: locale.pathPrefix ++ page.urlPath

/-- The address of the default version of a page. -/
def defaultUrl (registry : Registry) (page : Page) : Text :=
  registry.pageUrl page registry.source

/-- The versions of a page in the locales. -/
def versions (registry : Registry) (page : Page) : List Alternate :=
  registry.locales.map fun locale ↦ ⟨locale.hreflang, registry.pageUrl page locale⟩

/-- The versions of a page in the locales, and the default version. -/
def alternates (registry : Registry) (page : Page) : List Alternate :=
  registry.versions page ++ [⟨defaultLanguage, registry.defaultUrl page⟩]

/-- The link element for a version of a page. -/
def alternateTag (alternate : Alternate) : Text :=
  "<link rel=\"alternate\" hreflang=\"".toList ++ escapeMarkup alternate.hreflang ++
    "\" href=\"".toList ++ escapeMarkup alternate.href ++ "\">".toList

/-- The line break and indentation between lines of the head. -/
def headSeparator : Text := "\n    ".toList

/-- The links to all versions of a page. -/
def hreflangTags (registry : Registry) (page : Page) : Text :=
  Text.joinWith headSeparator ((registry.alternates page).map alternateTag)

/-- The Open Graph property for another locale. -/
def ogLocaleTag (ogLocale : Text) : Text :=
  "<meta property=\"og:locale:alternate\" content=\"".toList ++ escapeMarkup ogLocale ++
    "\">".toList

/-- The Open Graph properties for the locales other than a given one. -/
def ogLocaleAlternates (registry : Registry) (locale : Locale) : Text :=
  let others := registry.locales.filter fun other ↦ other.code != locale.code
  Text.joinWith headSeparator (others.map fun other ↦ ogLocaleTag other.ogLocale)

/-- The path that the language switcher links to. -/
def switcherPath (page : Page) (locale : Locale) : Text :=
  '/' :: locale.pathPrefix ++ page.urlPath

/-- One entry of the language switcher. -/
def switcherItem (page : Page) (current locale : Locale) : Text :=
  "<li><a href=\"".toList ++ escapeMarkup (switcherPath page locale) ++ ['"'] ++
    (if locale.code = current.code then " class=\"lang-active\"".toList else []) ++ '>' ::
    escapeMarkup locale.flag ++ ' ' :: escapeMarkup locale.name ++ "</a></li>".toList

/-- The language switcher of a page, with the current locale marked. -/
def langSwitcher (registry : Registry) (page : Page) (current : Locale) : Text :=
  "<div class=\"lang-switcher\">\n        ".toList ++
    "<button class=\"lang-current\" aria-label=\"Language\">".toList ++
    escapeMarkup current.flag ++ ' ' :: escapeMarkup (Text.upper current.htmlLang) ++
    " ▾</button>\n        <ul class=\"lang-dropdown\">\n            ".toList ++
    Text.joinWith "\n            ".toList
      (registry.locales.map (switcherItem page current)) ++
    "\n        </ul>\n    </div>".toList

/-- The value of a structural placeholder on a page in a locale. -/
def value (registry : Registry) (page : Page) (locale : Locale) : Structural → Text
  | .htmlLang => locale.htmlLang
  | .ogLocale => locale.ogLocale
  | .localePath => locale.pathPrefix
  | .canonicalUrl | .pageUrl => registry.pageUrl page locale
  | .hreflangTags => registry.hreflangTags page
  | .ogLocaleAlternates => registry.ogLocaleAlternates locale
  | .langSwitcher => registry.langSwitcher page locale

/-- A template with its structural placeholders filled in. -/
def fill (registry : Registry) (page : Page) (locale : Locale) (template : Text) : Text :=
  (Cuts.all Structural.recognize template).text (registry.value page locale)

end Registry

end LocalizedSite.Render
