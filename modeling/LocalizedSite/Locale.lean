import LocalizedSite.Entries

/-!
# Locales

The values of a locale from which its pages, its links and its dictionary header follow.
-/

namespace LocalizedSite

/-- A locale of the site. -/
structure Locale where
  /-- The code under which the site lists the locale. -/
  code : Text
  /-- The path under which its pages stand: empty, or ending in a slash. -/
  pathPrefix : Text
  /-- The value of the Open Graph locale property. -/
  ogLocale : Text
  /-- The value of the `lang` attribute. -/
  htmlLang : Text
  /-- The value of the `hreflang` attribute in links to its pages. -/
  hreflang : Text
  /-- The name of the language in the language itself. -/
  name : Text
  /-- A flag shown beside the name. -/
  flag : Text
  /-- The name of the language in the source language, for the translator. -/
  languageName : Option Text
  /-- Further instructions for the translator. -/
  instructions : Text
deriving DecidableEq, Repr

namespace Locale

/-- The header that a locale's dictionary carries. -/
def header (locale : Locale) : Entries Text :=
  [("locale".toList, locale.code), ("locale_path".toList, locale.pathPrefix),
   ("og_locale".toList, locale.ogLocale), ("html_lang".toList, locale.htmlLang)]

/-- The name of the language as the translator is told. -/
def targetLanguage (locale : Locale) : Text :=
  match locale.languageName with
  | some name => if name.isEmpty then locale.name else name
  | none => locale.name

end Locale

end LocalizedSite
