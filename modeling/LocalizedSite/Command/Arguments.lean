import LocalizedSite.Command.Basic
import LocalizedSite.Entries
import LocalizedSite.Text.Blank

/-!
# Arguments of a command line

The first argument names the command. Every further argument is an option: a switch, or a name with a
value, which is the next argument or follows an equals sign. Of an option that is given twice the last
value counts. Without an option for the configuration an environment variable names its file, and without
that variable it stands at a fixed place.

A selection names some locales or scopes, separated by commas. Blanks around a name do not count, and
a selection without a name selects everything.
-/

namespace LocalizedSite.Command

/-- Why arguments cannot be understood. -/
inductive ArgumentFault where
  /-- No command is named. -/
  | noCommand
  /-- The command does not exist. -/
  | unknownCommand (name : Text)
  /-- The command has no such option. -/
  | unknownOption (argument : Text)
  /-- An option has no value. -/
  | noValue (name : Text)
deriving DecidableEq, Repr

/-- The wording of why arguments cannot be understood. -/
def ArgumentFault.message : ArgumentFault → Text
  | .noCommand => "No command given.".toList
  | .unknownCommand name => "Unknown command '".toList ++ name ++ "'.".toList
  | .unknownOption argument => "Unknown option '".toList ++ argument ++ "'.".toList
  | .noValue name => "Option '".toList ++ name ++ "' requires a value.".toList

/-- The option that names the file of the configuration. -/
def configOption : Text := "--config".toList

/-- The option that selects locales. -/
def localesOption : Text := "--locales".toList

/-- The option that selects scopes. -/
def sectionsOption : Text := "--sections".toList

/-- The switches that only change what is logged. -/
def switches : List Text :=
  ["--verbose".toList, "--no-verbose".toList]

/-- The options of a command that have a value. -/
def valueOptions : Command → List Text
  | .extract => [configOption]
  | .translate => [configOption, localesOption, sectionsOption]
  | .build | .verify => [configOption, localesOption]

/-- Take a value for an option that a command has. -/
def takeOption (command : Command) (name value : Text) (taken : Entries Text) :
    Except ArgumentFault (Entries Text) :=
  if (valueOptions command).contains name then .ok (Entries.put taken name value)
  else .error (.unknownOption name)

/-- Read the options of a command. -/
def readOptions (command : Command) :
    Entries Text → List Text → Except ArgumentFault (Entries Text)
  | taken, [] => .ok taken
  | taken, argument :: rest =>
    if switches.contains argument then readOptions command taken rest
    else
      match Text.cut? ['='] argument, rest with
      | some (name, value), rest => do
        readOptions command (← takeOption command name value taken) rest
      | none, value :: rest => do
        readOptions command (← takeOption command argument value taken) rest
      | none, [] =>
        if (valueOptions command).contains argument then .error (.noValue argument)
        else .error (.unknownOption argument)

/-- The environment variable that names the file of the configuration. -/
def configVariable : Text := "POLYGLOT_CONFIG".toList

/-- The file of the configuration unless another is named. -/
def standardConfig : Text := "config/site.yaml".toList

/-- The file of the configuration: the option's, else the variable's, else the standard one. -/
def configPath (surroundings : Surroundings) (options : Entries Text) : FilePath :=
  let given := (Entries.get? options configOption).or (surroundings.valueOf? configVariable)
  .ofText (given.getD standardConfig)

/-- The names in a selection, or nothing if it has none. -/
def selection? (text : Text) : Option (List Text) :=
  let names := ((Text.splitAt ',' text).map Text.trim).filter fun name ↦ !name.isEmpty
  if names.isEmpty then none else some names

/-- The names that an option selects. -/
def selected (options : Entries Text) (option : Text) : List Text :=
  ((Entries.get? options option).bind selection?).getD []

/-- Read the arguments of a command line. -/
def Invocation.ofArguments (surroundings : Surroundings) :
    List Text → Except ArgumentFault Invocation
  | [] => .error .noCommand
  | name :: rest =>
    match ofName? name with
    | none => .error (.unknownCommand name)
    | some command => do
      let options ← readOptions command [] rest
      return {
        command
        config := configPath surroundings options
        locales := selected options localesOption
        sections := selected options sectionsOption }

end LocalizedSite.Command
