import LocalizedSite.Files.Tree
import LocalizedSite.Yaml.Fault

/-!
# Faults of a configuration

Why a configuration cannot be had: its file is missing, is no text or no YAML, or what it says is not a
configuration.
-/

namespace LocalizedSite

/-- Why a value is no integer. -/
inductive IntegerFault where
  /-- A text stands for no integer; it comes as it is shown. -/
  | noInteger (shown : Text)
  /-- A value is not even a number. -/
  | noNumber
  /-- A number is infinite. -/
  | infinite
  /-- The value is the one that is not a number. -/
  | undefined
deriving DecidableEq, Repr

/-- The wording of a value that is no integer. -/
def IntegerFault.message? : IntegerFault → Option Text
  | .noInteger shown => some (noIntegerMessage 10 shown)
  | .noNumber => none
  | .infinite => some "cannot convert float infinity to integer".toList
  | .undefined => some "cannot convert float NaN to integer".toList

/-- What is wrong with what a configuration says. -/
inductive SettingFault where
  | noLocales
  | localeNotMapping (code : Text)
  | localeIncomplete (code : Text) (missing : List Text)
  | unknownSource (code : Text)
  | noPages
  | pageNotMapping (number : Nat)
  | pageIncomplete (number : Nat)
  | repeatedPage (key : Text)
  | noBaseUrl
  | labelsNotMapping (setting : Text)
deriving DecidableEq, Repr

/-- The wording of what is wrong. -/
def SettingFault.message : SettingFault → Text
  | .noLocales => "No locales defined in site configuration.".toList
  | .localeNotMapping code => "Locale '".toList ++ code ++ "' must be a mapping.".toList
  | .localeIncomplete code missing =>
    "Locale '".toList ++ code ++ "' is missing: ".toList ++ Text.joinWith ", ".toList missing
  | .unknownSource code =>
    "Source locale '".toList ++ code ++ "' is not among the configured locales.".toList
  | .noPages => "No pages defined in site configuration.".toList
  | .pageNotMapping number =>
    "Page entry #".toList ++ Text.ofNat number ++ " must be a mapping.".toList
  | .pageIncomplete number =>
    "Page entry #".toList ++ Text.ofNat number ++ " requires 'key' and 'template'.".toList
  | .repeatedPage key => "Duplicate page key '".toList ++ key ++ "'.".toList
  | .noBaseUrl => "Site configuration is missing 'base_url'.".toList
  | .labelsNotMapping setting =>
    "Extraction setting '".toList ++ setting ++ "' must be a mapping.".toList

/-- Why a configuration cannot be had. -/
inductive ConfigFault where
  /-- The file does not exist. -/
  | noFile (path : Text)
  /-- The file cannot be read. -/
  | file (error : FileError)
  /-- The text has no value. -/
  | yaml (fault : Yaml.Fault)
  /-- The value is no mapping. -/
  | notMapping
  /-- A group of settings is no mapping. -/
  | groupNotMapping
  /-- A setting is wrong. -/
  | setting (fault : SettingFault)
  /-- A number is wrong. -/
  | integer (fault : IntegerFault)
deriving DecidableEq, Repr

/-- The wording of a fault, if it has one. -/
def ConfigFault.message? : ConfigFault → Option Text
  | .noFile path => some ("Configuration file '".toList ++ path ++ "' not found.".toList)
  | .yaml fault => fault.message?
  | .notMapping => some "Top-level YAML structure must be a mapping.".toList
  | .setting fault => some fault.message
  | .integer fault => fault.message?
  | .file _ | .groupNotMapping => none

end LocalizedSite
