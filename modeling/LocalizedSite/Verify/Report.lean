import LocalizedSite.Text.Basic

/-!
# Reports of a verification

A verification runs nine checks, and each finding of a check is a diagnostic: an error, a warning, or
the statement that all is well.
-/

namespace LocalizedSite.Verify

/-- A check. -/
inductive Check where
  /-- Every page is there in every locale. -/
  | completeness
  /-- No reference was left unresolved. -/
  | placeholders
  /-- No missing value was written. -/
  | undefined
  /-- The language of a document is that of its locale. -/
  | htmlLang
  /-- A document links to all versions of its page. -/
  | hreflang
  /-- The sitemap lists the pages with their versions. -/
  | sitemap
  /-- Links inside the site lead somewhere. -/
  | links
  /-- Hidden pages tell search engines so. -/
  | noindex
  /-- Templates refer only to texts that exist. -/
  | keySurface
deriving DecidableEq, Repr

/-- The name of a check. -/
def Check.name : Check → Text
  | .completeness => "completeness".toList
  | .placeholders => "placeholders".toList
  | .undefined => "undefined".toList
  | .htmlLang => "html-lang".toList
  | .hreflang => "hreflang".toList
  | .sitemap => "sitemap".toList
  | .links => "links".toList
  | .noindex => "noindex".toList
  | .keySurface => "key-surface".toList

/-- How bad a finding is. -/
inductive Severity where
  | error
  | warning
  | pass
deriving DecidableEq, Repr

/-- The name of a severity. -/
def Severity.name : Severity → Text
  | .error => "error".toList
  | .warning => "warning".toList
  | .pass => "pass".toList

/-- The mark of a severity in front of a printed finding. -/
def Severity.label : Severity → Text
  | .error => "ERROR".toList
  | .warning => "WARN".toList
  | .pass => "PASS".toList

/-- A finding of a check. -/
structure Diagnostic where
  /-- The check. -/
  check : Check
  /-- How bad the finding is. -/
  severity : Severity
  /-- What was found. -/
  message : Text
  /-- The file that it is about, if it is about one. -/
  path : Option Text
deriving DecidableEq, Repr

/-- The printed line of a finding. -/
def Diagnostic.line (diagnostic : Diagnostic) : Text :=
  diagnostic.severity.label ++ ": ".toList ++ diagnostic.message

/-- The finding that all is well. -/
def passed (check : Check) (message : Text) : Diagnostic :=
  ⟨check, .pass, message, none⟩

/-- An error in a file. -/
def errorIn (check : Check) (path message : Text) : Diagnostic :=
  ⟨check, .error, message, some path⟩

/-- The findings of a severity. -/
def withSeverity (severity : Severity) (diagnostics : List Diagnostic) : List Diagnostic :=
  diagnostics.filter fun diagnostic ↦ diagnostic.severity == severity

/-- Whether there is no error. -/
def isPassed (diagnostics : List Diagnostic) : Bool :=
  (withSeverity .error diagnostics).isEmpty

end LocalizedSite.Verify
