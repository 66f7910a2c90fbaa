import LocalizedSite.Config.Basic
import LocalizedSite.Extract.Worth
import LocalizedSite.Verify.Document
import LocalizedSite.Verify.Link
import LocalizedSite.Verify.Report

/-!
# Checks of built pages

Each check goes through the built pages of the verified locales, and gives its findings in their
order.
-/

namespace LocalizedSite.Verify

open Html

/-- A built page. -/
structure PageFile where
  /-- The page. -/
  page : Page
  /-- The locale. -/
  locale : Locale
  /-- The file, relative to the output directory. -/
  place : Text
  /-- The text of the file. -/
  text : Text

/-- A built page with its document. -/
structure PageDocument extends PageFile where
  /-- The document. -/
  document : List Node

/-- The elements of a document. -/
def PageDocument.elements (file : PageDocument) : List Element :=
  elementsOf file.document

/-- The findings, or the statement that all is well if there are none. -/
def orPassed (check : Check) (message : String) (found : List Diagnostic) : List Diagnostic :=
  if found.isEmpty then [passed check message.toList] else found

/-- A count in front of a text. -/
def counted (count : Nat) (text : String) : Text :=
  Text.ofNat count ++ text.toList

/-- Check that no reference was left unresolved. -/
def checkPlaceholders (files : List PageFile) : List Diagnostic :=
  orPassed .placeholders "No unresolved \x7b\x7bt.\x7d\x7d placeholders" (files.flatMap fun file ↦
    (Placeholder.unresolved file.text).map fun token ↦
      errorIn .placeholders file.place (file.place ++ ": unresolved ".toList ++ token))

/-- Check that no missing value was written. -/
def checkUndefined (files : List PageDocument) : List Diagnostic :=
  orPassed .undefined "No \"undefined\" strings found" (files.filterMap fun file ↦
    let count := countUndefined file.document
    if count = 0 then none
    else
      some (errorIn .undefined file.place
        (file.place ++ ": ".toList ++ counted count " \"undefined\" occurrences")))

/-- The language that a document declares; an empty one counts as none. -/
def declaredLanguage (file : PageDocument) : Option Text :=
  ((file.elements.find? fun element ↦ element.named "html").bind fun element ↦
    element.attribute? "lang").filter fun language ↦ !language.isEmpty

/-- What is wrong with the language of a document, if anything. -/
def languageFault (file : PageDocument) : Option Diagnostic :=
  let expected := file.locale.htmlLang
  match declaredLanguage file with
  | none => some (errorIn .htmlLang file.place (file.place ++ ": missing <html lang>".toList))
  | some language =>
    if language = expected then none
    else
      some (errorIn .htmlLang file.place
        (file.place ++ ": lang=\"".toList ++ language ++ "\" expected \"".toList ++ expected ++
          ['"']))

/-- The faults of some files, and the number of those without one. -/
def faultsAndCount (check : Check) (message : String) (fault : PageDocument → Option Diagnostic)
    (files : List PageDocument) : List Diagnostic :=
  let faults := files.filterMap fault
  faults ++ [passed check (counted (files.length - faults.length) message)]

/-- Check the languages of documents. -/
def checkLanguage (files : List PageDocument) : List Diagnostic :=
  faultsAndCount .htmlLang " files have correct html lang" languageFault files

/-- The languages of the versions that a document links to. -/
def linkedLanguages (file : PageDocument) : List Text :=
  file.elements.filterMap fun element ↦
    if element.named "link" then element.attribute? "hreflang" else none

/-- What is wrong with the links of a document to the versions of its page, if anything. -/
def versionFault (expected : List Text) (file : PageDocument) : Option Diagnostic :=
  let languages := linkedLanguages file
  let missing := expected.filter fun language ↦ !languages.contains language
  let defaults := languages.count Render.defaultLanguage
  if !missing.isEmpty then
    some (errorIn .hreflang file.place
      (file.place ++ ": missing hreflang for ".toList ++ Text.joinWith ", ".toList missing))
  else if defaults != 1 then
    some (errorIn .hreflang file.place
      (file.place ++ ": expected one x-default hreflang, found ".toList ++ Text.ofNat defaults))
  else none

/-- Check the links to the versions of pages. -/
def checkVersions (config : Config) (files : List PageDocument) : List Diagnostic :=
  let expected := config.locales.map fun (_, locale) ↦ locale.hreflang
  faultsAndCount .hreflang " files have correct hreflang tags" (versionFault expected)
    (files.filter fun file ↦ !config.isExempt file.page)

/-- The links of a document to pages of the site, other than to a place inside a page. -/
def pageLinks (file : PageDocument) : List Text :=
  (file.elements.filterMap fun element ↦ element.attribute? "href").filter fun link ↦
    !link.any (· == '#') && Extract.isPageLink link

/-- The links of documents that lead nowhere, if no link has a malformed host. -/
def brokenLinks (tree : FileTree) (directory : FilePath) (links : List (Text × Text)) :
    Except LinkFault (List (Text × Text)) := do
  let paths ← links.mapM fun (place, link) ↦ (linkPath link).map fun path ↦ (place, link, path)
  return (paths.filter fun (_, _, path) ↦ !leadsToFile tree directory path).map
    fun (place, link, _) ↦ (place, link)

/-- The warning about a link that leads nowhere. -/
def brokenLink (place link : Text) : Diagnostic :=
  ⟨.links, .warning, "Broken link: ".toList ++ place ++ " -> ".toList ++ link, some place⟩

/-- Check that links lead somewhere. -/
def checkLinks (tree : FileTree) (directory : FilePath) (files : List PageDocument) :
    Except LinkFault (List Diagnostic) := do
  let links := files.flatMap fun file ↦ (pageLinks file).map fun link ↦ (file.place, link)
  let broken ← brokenLinks tree directory links
  let checked := links.length
  if broken.isEmpty then
    return [passed .links (counted checked " internal links checked, all valid")]
  else
    let summary :=
      Text.ofNat broken.length ++ '/' :: counted checked " broken internal links"
    return broken.map (fun (place, link) ↦ brokenLink place link) ++
      [⟨.links, .warning, summary, none⟩]

/-- What a hidden page tells search engines. -/
def checkHiddenPage (file : PageDocument) : Diagnostic :=
  if hasNoindex file.document then passed .noindex (file.place ++ " has noindex".toList)
  else errorIn .noindex file.place (file.place ++ ": missing noindex".toList)

/-- Check that hidden pages tell search engines so. -/
def checkHidden (config : Config) (files : List PageDocument) : List Diagnostic :=
  (files.filter fun file ↦ config.hiddenPages.contains file.page.key).map checkHiddenPage

end LocalizedSite.Verify
