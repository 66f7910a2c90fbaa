import LocalizedSite.Text.Basic

/-!
# Paths

A path is a list of names, absolute if it has a root. Empty names and single points vanish when a
path is read, and double points stay.
-/

namespace LocalizedSite

/-- A path of a file or directory. -/
structure FilePath where
  /-- The slashes at the beginning of an absolute path. -/
  root : Text
  /-- The names along the path. -/
  parts : List Text
deriving DecidableEq, Repr

namespace FilePath

/-- The slashes that make a path absolute: exactly two are kept, and any other number counts as
one. -/
def rootOf (text : Text) : Text :=
  match (text.takeWhile (· == '/')).length with
  | 0 => []
  | 2 => "//".toList
  | _ => ['/']

/-- Whether a name along a path leads nowhere. -/
def isIdle (name : Text) : Bool :=
  name.isEmpty || name == ['.']

/-- The path that a text denotes. -/
def ofText (text : Text) : FilePath :=
  ⟨rootOf text, (Text.splitAt '/' text).filter fun name ↦ !isIdle name⟩

/-- Whether a path is absolute. -/
def isAbsolute (path : FilePath) : Bool :=
  !path.root.isEmpty

/-- The text of a path; the empty relative path is a point. -/
def text (path : FilePath) : Text :=
  if path.root.isEmpty && path.parts.isEmpty then ['.']
  else path.root ++ Text.joinWith ['/'] path.parts

/-- A path below another one; an absolute path stands alone. -/
def join (base other : FilePath) : FilePath :=
  if other.isAbsolute then other else ⟨base.root, base.parts ++ other.parts⟩

/-- The path that a text denotes below another path. -/
def joinText (base : FilePath) (text : Text) : FilePath :=
  base.join (ofText text)

/-- The path without its last name. -/
def parent (path : FilePath) : FilePath :=
  { path with parts := path.parts.dropLast }

/-- The last name of a path. -/
def name (path : FilePath) : Text :=
  path.parts.getLast?.getD []

/-- A path relative to an absolute directory, if it lies below that directory. -/
def relativeTo? (path directory : FilePath) : Option FilePath :=
  if path.root = directory.root && directory.parts.isPrefixOf path.parts then
    some ⟨[], path.parts.drop directory.parts.length⟩
  else none

end FilePath

end LocalizedSite
