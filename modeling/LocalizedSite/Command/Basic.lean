import LocalizedSite.Files.Tree

/-!
# Commands

The program has four commands. A run of one prints lines, some of them about errors, and succeeds or
fails.
-/

namespace LocalizedSite

/-- A command. -/
inductive Command where
  /-- Make templates and the source dictionary from the authored pages. -/
  | extract
  /-- Bring the dictionaries of the other locales up to date. -/
  | translate
  /-- Render every page in every locale. -/
  | build
  /-- Check the built site. -/
  | verify
deriving DecidableEq, Repr

namespace Command

/-- The commands by name. -/
def named : List (Text × Command) :=
  [("extract".toList, .extract), ("translate".toList, .translate), ("build".toList, .build),
    ("verify".toList, .verify)]

/-- The command with a name. -/
def ofName? (name : Text) : Option Command :=
  named.lookup name

/-- A command with its options. -/
structure Invocation where
  /-- The command. -/
  command : Command
  /-- The file of the configuration. -/
  config : FilePath
  /-- The codes of the locales to work on; none stands for all. -/
  locales : List Text
  /-- The names of the scopes to translate; none stands for all. -/
  sections : List Text
deriving DecidableEq, Repr

/-- What surrounds a run besides the files. -/
structure Surroundings where
  /-- The values of environment variables. -/
  environment : List (Text × Text)
  /-- The present date. -/
  today : Text

/-- The value of an environment variable that is set. -/
def Surroundings.valueOf? (surroundings : Surroundings) (name : Text) : Option Text :=
  surroundings.environment.lookup name

/-- What a run prints, and whether it succeeds. -/
structure Printed where
  /-- The lines about what was done. -/
  output : List Text
  /-- The lines about errors. -/
  errors : List Text
  /-- Whether the run succeeds. -/
  isSuccess : Bool
deriving DecidableEq, Repr

namespace Printed

/-- A success that prints lines. -/
def success (output : List Text) : Printed :=
  ⟨output, [], true⟩

/-- A failure that prints one line about an error. -/
def failure (error : Text) : Printed :=
  ⟨[], [error], false⟩

/-- The lines about what was done with one more at the end. -/
def note (printed : Printed) (line : Text) : Printed :=
  { printed with output := printed.output ++ [line] }

/-- The lines about errors with one more at the end. -/
def warn (printed : Printed) (line : Text) : Printed :=
  { printed with errors := printed.errors ++ [line] }

/-- The exit status of a run. -/
def status (printed : Printed) : Nat :=
  if printed.isSuccess then 0 else 1

end Printed

/-- The text of lines, each with its end. -/
def linesText (lines : List Text) : Text :=
  lines.flatMap fun line ↦ line ++ ['\n']

end Command

end LocalizedSite
