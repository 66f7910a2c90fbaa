import LocalizedSite.Files.Path
import LocalizedSite.Text.Basic

/-!
# File trees

A file tree holds files and directories by location, a location being the list of names from the root.
A path is followed name by name: every name before the last must be a directory, and a double point
leads back. Text files are read with every line break as one line feed. Each operation gives a new
tree or the reason why it cannot be done.
-/

namespace LocalizedSite

/-- What a file holds: a text, or bytes that are no text. -/
inductive Content where
  | text (text : Text)
  | bytes (bytes : ByteArray)

/-- The content that consists of some bytes. -/
def Content.ofBytes (bytes : ByteArray) : Content :=
  match String.fromUTF8? bytes with
  | some decoded => .text decoded.toList
  | none => .bytes bytes

/-- The names from the root to a file or directory. -/
abbrev Location := List Text

/-- What stands at a location. -/
inductive FileNode where
  | directory
  | file (content : Content)

/-- Why an operation on files cannot be done. -/
inductive FileError where
  | notFound
  | isDirectory
  | notDirectory
  | exists
  | notText
  /-- The directory that a path without names leads to cannot be removed. -/
  | unremovable
deriving DecidableEq, Repr

/-- The wording of why an operation cannot be done. -/
def FileError.message : FileError → Text
  | .notFound => "No such file or directory".toList
  | .isDirectory => "Is a directory".toList
  | .notDirectory => "Not a directory".toList
  | .exists => "File exists".toList
  | .notText => "Not a text file".toList
  | .unremovable => "Invalid argument".toList

/-- A tree of files. The root is a directory without being listed. -/
structure FileTree where
  /-- The directory at which relative paths begin. -/
  workingDirectory : Location
  /-- The files and directories by location. -/
  nodes : List (Location × FileNode)

namespace FileTree

/-- The tree that has nothing but an empty working directory. -/
def empty : FileTree :=
  ⟨["work".toList], [(["work".toList], .directory)]⟩

/-- The path of the working directory. -/
def workingPath (tree : FileTree) : FilePath :=
  ⟨['/'], tree.workingDirectory⟩

/-- What stands at a location. -/
def node? (tree : FileTree) (location : Location) : Option FileNode :=
  if location.isEmpty then some .directory else tree.nodes.lookup location

/-- Change what stands at a location. -/
def setNode (tree : FileTree) (location : Location) (node : FileNode) : FileTree :=
  { tree with nodes := (location, node) :: tree.nodes.filter fun entry ↦ entry.1 != location }

/-- The name of the directory above. -/
def upName : Text := "..".toList

/-- The location that one name leads to. -/
def enter (tree : FileTree) (location : Location) (name : Text) : Except FileError Location :=
  match tree.node? location with
  | none => .error .notFound
  | some (.file _) => .error .notDirectory
  | some .directory => .ok (if name = upName then location.dropLast else location ++ [name])

/-- The location at which a path begins. -/
def startOf (tree : FileTree) (path : FilePath) : Location :=
  if path.isAbsolute then [] else tree.workingDirectory

/-- The location that a path leads to; nothing need stand there. -/
def locate (tree : FileTree) (path : FilePath) : Except FileError Location :=
  path.parts.foldlM tree.enter (tree.startOf path)

/-- What a path leads to, if anything. -/
def at? (tree : FileTree) (path : FilePath) : Option FileNode :=
  match tree.locate path with
  | .ok location => tree.node? location
  | .error _ => none

/-- Whether a path leads to a file. -/
def isFile (tree : FileTree) (path : FilePath) : Bool :=
  match tree.at? path with
  | some (.file _) => true
  | _ => false

/-- Whether a path leads to a directory. -/
def isDirectory (tree : FileTree) (path : FilePath) : Bool :=
  match tree.at? path with
  | some .directory => true
  | _ => false

/-- The content of a file. -/
def content (tree : FileTree) (path : FilePath) : Except FileError Content := do
  match tree.node? (← tree.locate path) with
  | none => .error .notFound
  | some .directory => .error .isDirectory
  | some (.file content) => .ok content

/-- Replace carriage returns, with the line feed that may follow each, by line feeds. -/
def replaceReturns : Text → Text
  | [] => []
  | '\r' :: '\n' :: rest => '\n' :: replaceReturns rest
  | '\r' :: rest => '\n' :: replaceReturns rest
  | character :: rest => character :: replaceReturns rest

/-- A text with every line break as one line feed. -/
def lineFeeds (text : Text) : Text :=
  if text.any (· == '\r') then replaceReturns text else text

/-- The text of a file. -/
def readText (tree : FileTree) (path : FilePath) : Except FileError Text := do
  match ← tree.content path with
  | .text text => .ok (lineFeeds text)
  | .bytes _ => .error .notText

/-- Write a file into a directory that exists. -/
def write (tree : FileTree) (path : FilePath) (content : Content) : Except FileError FileTree := do
  let location ← tree.locate path
  match tree.node? location with
  | some .directory => .error .isDirectory
  | _ => .ok (tree.setNode location (.file content))

/-- Go to a directory by one name, making it if it is absent. -/
def enterMaking (last : Bool) (state : FileTree × Location) (name : Text) :
    Except FileError (FileTree × Location) := do
  let (tree, location) := state
  let next ← tree.enter location name
  match tree.node? next with
  | some .directory => .ok (tree, next)
  | some (.file _) => .error (if last then .exists else .notDirectory)
  | none => .ok (tree.setNode next .directory, next)

/-- Make a directory and the directories above it. -/
def makeDirectories (tree : FileTree) (path : FilePath) : Except FileError FileTree := do
  let above ← path.parts.dropLast.foldlM (enterMaking false) (tree, tree.startOf path)
  let (made, _) ← path.parts.getLast?.toList.foldlM (enterMaking true) above
  return made

/-- Write a file, making the directory in which it stands. -/
def writeMaking (tree : FileTree) (path : FilePath) (content : Content) :
    Except FileError FileTree := do
  (← tree.makeDirectories path.parent).write path content

/-- Remove a file. -/
def removeFile (tree : FileTree) (path : FilePath) : Except FileError FileTree := do
  let location ← tree.locate path
  match tree.node? location with
  | none => .error .notFound
  | some .directory => .error .isDirectory
  | some (.file _) =>
    .ok { tree with nodes := tree.nodes.filter fun entry ↦ entry.1 != location }

/-- Remove everything below a directory. -/
def emptyDirectory (tree : FileTree) (path : FilePath) : Except FileError FileTree := do
  let location ← tree.locate path
  match tree.node? location with
  | none => .error .notFound
  | some (.file _) => .error .notDirectory
  | some .directory =>
    .ok { tree with nodes := tree.nodes.filter fun entry ↦
            !location.isPrefixOf entry.1 || entry.1 == location }

/-- Remove a directory with everything below it. -/
def removeDirectory (tree : FileTree) (path : FilePath) : Except FileError FileTree := do
  if path.parts.isEmpty then throw .unremovable
  let location ← tree.locate path
  match tree.node? location with
  | none => .error .notFound
  | some (.file _) => .error .notDirectory
  | some .directory =>
    .ok { tree with nodes := tree.nodes.filter fun entry ↦ !location.isPrefixOf entry.1 }

/-- Copy a file; into a directory it goes under its own name. -/
def copyFile (tree : FileTree) (source target : FilePath) : Except FileError FileTree := do
  let content ← tree.content source
  let target :=
    if tree.isDirectory target then target.join ⟨[], [source.name]⟩ else target
  tree.write target content

/-- The files and directories below a location with their places relative to it, those nearer to it
first. -/
def below (tree : FileTree) (location : Location) : List (Location × FileNode) :=
  let found := tree.nodes.filterMap fun (place, node) ↦
    if location.isPrefixOf place && place != location then
      some (place.drop location.length, node)
    else none
  found.mergeSort fun first second ↦ first.1.length ≤ second.1.length

/-- Copy a directory with everything below it into another one, which need not exist. -/
def copyDirectory (tree : FileTree) (source target : FilePath) : Except FileError FileTree := do
  let location ← tree.locate source
  let made ← tree.makeDirectories target
  (tree.below location).foldlM (fun tree (place, node) ↦
    let path := target.join ⟨[], place⟩
    match node with
    | .directory => tree.makeDirectories path
    | .file _ => tree.copyFile (source.join ⟨[], place⟩) path) made

/-- The files below a path in the order of their names, each with its place from the working
directory. -/
def files (tree : FileTree) (path : FilePath) : List (Text × Content) :=
  match tree.locate path with
  | .error _ => []
  | .ok location =>
    let found := tree.nodes.filterMap fun (place, node) ↦
      match node with
      | .file content =>
        if location.isPrefixOf place then
          some (Text.joinWith ['/'] (place.drop tree.workingDirectory.length), content)
        else none
      | .directory => none
    Text.sortBy Prod.fst found

end FileTree

end LocalizedSite
