import LocalizedSite.Command.Basic
import LocalizedSite.Config.Read
import LocalizedSite.Site.Build
import LocalizedSite.Translate.Service
import LocalizedSite.Verify.Site

/-!
# Running a command

Every command reads the configuration anew. `extract`, `build` and `verify` print what they did or found;
`translate` needs a key for the translation service, and passes over a locale whose dictionary file is no
dictionary. A file is printed relative to the working directory if it lies below it.
-/

namespace LocalizedSite.Command

/-- How a path is printed. -/
def shownPath (tree : FileTree) (path : FilePath) : Text :=
  ((path.relativeTo? tree.workingPath).getD path).text

/-- The line about a file that was written. -/
def wroteLine (tree : FileTree) (path : FilePath) : Text :=
  "wrote ".toList ++ shownPath tree path

/-- A number in front of a word. -/
def amount (number : Nat) (word : String) : Text :=
  Text.ofNat number ++ word.toList

/-- Extract a site. -/
def runExtract (config : Config) : SiteAction Printed := do
  let report ← Site.extract config []
  let wrote ← SiteAction.look wroteLine
  let dictionary :=
    wrote report.dictionary ++ " (".toList ++ amount report.entryCount " strings)"
  let skipped := report.skipped.map fun key ↦
    "skipped ".toList ++ key ++ ": raw page not found".toList
  return .success (report.templates.map wrote ++ dictionary :: skipped)

/-- The line about a build. -/
def builtLine (report : Site.BuildReport) : Text :=
  let locales := Text.joinWith ", ".toList report.locales
  "Built ".toList ++ amount report.pages.length " pages for " ++
    Translate.orElse locales "no locales".toList

/-- Build a site. -/
def runBuild (config : Config) (locales : List Text) (today : Text) : SiteAction Printed := do
  let report ← Site.build config locales today
  let wrote ← SiteAction.look wroteLine
  return .success ((report.pages.map fun page ↦ wrote page.path) ++
    [wrote report.sitemap, builtLine report])

/-- What is printed about findings. -/
def printDiagnostics (diagnostics : List Verify.Diagnostic) : Printed :=
  let errors := Verify.withSeverity .error diagnostics
  let warnings := Verify.withSeverity .warning diagnostics
  let results :=
    "Results: ".toList ++ amount errors.length " errors, " ++ amount warnings.length " warnings"
  let verdict :=
    if !errors.isEmpty then "FAIL - Fix errors before deploying"
    else if !warnings.isEmpty then "PASS with warnings"
    else "ALL CHECKS PASSED"
  ⟨diagnostics.map Verify.Diagnostic.line ++ [results, verdict.toList], [], errors.isEmpty⟩

/-- Verify a site. -/
def runVerify (config : Config) (locales : List Text) : SiteAction Printed := do
  let diagnostics ← SiteAction.ofExcept id (Verify.verify config (← get) locales)
  return printDiagnostics diagnostics

variable {σ : Type}

/-- What the translation of several locales has come to. -/
structure TranslationRun (σ : Type) where
  /-- The dictionaries. -/
  store : Store
  /-- The state of the translator. -/
  translator : σ
  /-- What was printed. -/
  printed : Printed

/-- The line about a locale that was translated. -/
def translatedLine (locale : Locale) (report : Dictionary.RefreshReport) : Text :=
  locale.code ++ ": ".toList ++ amount report.translated.length " translated, " ++
    amount report.skipped.length " up to date, " ++ amount report.failed.length " failed"

/-- Bring the dictionary of a locale up to date; pass over it if its file is no dictionary. -/
def translateLocale (translate : Dictionary.Translator σ) (sections : List Text)
    (run : TranslationRun σ) (locale : Locale) : SiteAction (TranslationRun σ) := do
  let done := run.store.refresh (← get) translate run.translator locale sections
  set done.tree
  match done.result with
  | .ok report =>
    return ⟨done.store, done.translator, run.printed.note (translatedLine locale report)⟩
  | .error fault =>
    match fault.message? with
    | none => throw (.store fault)
    | some message =>
      let line := locale.code ++ ": skipped, ".toList ++ message
      return ⟨done.store, done.translator, run.printed.warn line⟩

/-- The key for the translation service. -/
def serviceKey? (config : Config) (surroundings : Surroundings) : Option Text :=
  (surroundings.valueOf? config.translation.keyVariable).filter fun key ↦ !key.isEmpty

/-- The line about a missing key. -/
def noKeyLine (config : Config) : Text :=
  "Error: ".toList ++ config.translation.keyVariable ++ " environment variable not set".toList

/-- Bring the dictionaries of locales other than the source up to date. -/
def runTranslate (transport : Translate.Transport σ) (connection : σ) (config : Config)
    (surroundings : Surroundings) (locales sections : List Text) : SiteAction (Printed × σ) := do
  match serviceKey? config surroundings with
  | none => return (.failure (noKeyLine config), connection)
  | some key =>
    let selected ← SiteAction.ofExcept .unknownLocales (config.selectLocales locales)
    let targets := selected.filter fun locale ↦ locale.code != config.source.code
    let translate := Translate.translator config.translation key transport
    let run ← targets.foldlM (translateLocale translate sections)
      ⟨config.store, connection, .success []⟩
    return (run.printed, run.translator)

/-- Run a command with a connection to the translation service. -/
def run (transport : Translate.Transport σ) (connection : σ) (surroundings : Surroundings)
    (invocation : Invocation) : SiteAction (Printed × σ) := do
  let config ← SiteAction.ofExcept .config (Config.load (← get) invocation.config)
  let locales := invocation.locales
  match invocation.command with
  | .extract => return (← runExtract config, connection)
  | .translate =>
    runTranslate transport connection config surroundings locales invocation.sections
  | .build => return (← runBuild config locales surroundings.today, connection)
  | .verify => return (← runVerify config locales, connection)

end LocalizedSite.Command
