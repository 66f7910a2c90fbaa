import LocalizedSite.Files.Tree

/-!
# Where a link leads

The path of a link is what remains without a host, a query and a fragment; tabs and line breaks do not
count. A host is malformed if it has a bracket without its counterpart, or a character that stands for one
of the characters that end a host. A path that ends in a slash leads to a directory index. Any other leads to a file of that name, of
that name with the ending of a page, or to the directory index below.
-/

namespace LocalizedSite.Verify

/-- Whether a character does not count in a link. -/
def isIgnoredInLink (character : Char) : Bool :=
  character == '\t' || character == '\n' || character == '\r'

/-- What is wrong with the host of a link. -/
inductive LinkFault where
  /-- One kind of bracket stands without the other. -/
  | loneBracket
  /-- A character of the host stands for one that ends a host or its parts. -/
  | disguisedDelimiter (host : Text)
deriving DecidableEq, Repr

/-- The wording of what is wrong with a host. -/
def LinkFault.message : LinkFault → Text
  | .loneBracket => "Invalid IPv6 URL".toList
  | .disguisedDelimiter host =>
    "netloc '".toList ++ host ++
      "' contains invalid characters under NFKC normalization".toList

/-- Whether a host has one kind of bracket without the other. -/
def hasLoneBracket (host : Text) : Bool :=
  host.any (· == '[') != host.any (· == ']')

/-- The characters whose compatibility decomposition has a slash, a question mark, a number sign, an at
sign or a colon. -/
def disguisedDelimiters : Text :=
  "⁇⁈⁉℀℁℅℆⩴︓︖﹕﹖﹟﹫＃／：？＠".toList

/-- A link without its host, if the host is well formed. -/
def withoutHost (link : Text) : Except LinkFault Text :=
  match Text.after? "//".toList link with
  | none => .ok link
  | some rest =>
    let (host, rest) := rest.span fun character ↦ !("/?#".toList.contains character)
    if hasLoneBracket host then .error .loneBracket
    else if host.any (disguisedDelimiters.elem ·) then .error (.disguisedDelimiter host)
    else .ok rest

/-- The path of a link, if its host is well formed. -/
def linkPath (link : Text) : Except LinkFault Text :=
  (withoutHost (link.filter fun character ↦ !isIgnoredInLink character)).map fun rest ↦
    rest.takeWhile fun character ↦ character != '#' && character != '?'

/-- The files below the site that a path may lead to. -/
def linkTargets (path : Text) : List Text :=
  let index := "index.html".toList
  let ending := ".html".toList
  if path.isEmpty || Text.endsWith path ['/'] then [path ++ index]
  else
    [path, path ++ ending, path ++ '/' :: index] ++
      if Text.endsWith path ending then
        [path.take (path.length - ending.length) ++ '/' :: index]
      else []

/-- Whether a path of the site leads to a file below a directory. -/
def leadsToFile (tree : FileTree) (directory : FilePath) (path : Text) : Bool :=
  (linkTargets (Text.trimStartWhere (· == '/') path)).any fun target ↦
    tree.isFile (directory.joinText target)

end LocalizedSite.Verify
