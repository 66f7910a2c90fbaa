import LocalizedSite.Config.Basic
import LocalizedSite.Config.Fault
import LocalizedSite.Dictionary.Store
import LocalizedSite.Verify.Link

/-!
# Actions on the files of a site

An action changes the files and either has a result or stops at a fault. The files that it changed
before a fault stay changed, so the files come back in both cases.
-/

namespace LocalizedSite

/-- Why an action on a site stopped. -/
inductive SiteFault where
  /-- The configuration cannot be had. -/
  | config (fault : ConfigFault)
  /-- Some codes are no locale of the site. -/
  | unknownLocales (codes : List Text)
  /-- A file cannot be read or written. -/
  | file (error : FileError)
  /-- A dictionary cannot be had. -/
  | store (fault : StoreFault)
  /-- An authored page has a marked section of an unknown kind. -/
  | rejectedPage
  /-- A built file has a marked section of an unknown kind. -/
  | rejectedDocument
  /-- A link has a malformed host. -/
  | link (fault : Verify.LinkFault)
deriving DecidableEq, Repr

/-- The wording of a fault. -/
def SiteFault.message : SiteFault → Text
  | .config fault => fault.message?.getD "The configuration cannot be read.".toList
  | .unknownLocales codes => Config.unknownLocalesMessage codes
  | .file error => error.message
  | .store fault => fault.message?.getD "A dictionary cannot be read.".toList
  | .rejectedPage => "An authored page has a marked section of an unknown kind.".toList
  | .rejectedDocument => "A built page has a marked section of an unknown kind.".toList
  | .link fault => fault.message

/-- An action on the files of a site. -/
abbrev SiteAction := ExceptT SiteFault (StateM FileTree)

namespace SiteAction

/-- Look at the files. -/
def look {α : Type} (read : FileTree → α) : SiteAction α := do
  return read (← get)

/-- Read from the files. -/
def read {α : Type} (read : FileTree → Except FileError α) : SiteAction α := do
  match read (← get) with
  | .ok value => return value
  | .error error => throw (.file error)

/-- Change the files. -/
def change (change : FileTree → Except FileError FileTree) : SiteAction Unit := do
  match change (← get) with
  | .ok tree => set tree
  | .error error => throw (.file error)

/-- Write a text file, making the directory in which it stands. -/
def writeText (path : FilePath) (text : Text) : SiteAction Unit := do
  change (·.makeDirectories path.parent)
  change (·.write path (.text text))

/-- A value that must not be a fault. -/
def ofExcept {ε α : Type} (fault : ε → SiteFault) (value : Except ε α) : SiteAction α :=
  match value with
  | .ok value => pure value
  | .error cause => throw (fault cause)

end SiteAction

end LocalizedSite
