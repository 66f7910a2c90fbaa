import LocalizedSite.Command.Arguments
import LocalizedSite.Command.Run
import LocalizedSite.Json.Read

/-!
# A run as a message

A run can be described by a message that has all it needs: the files of the site by path, the
environment variables, and the date. The answer has what was printed and the files afterwards. A file is
a string, or a list of bytes if it is no text. Without a connection every translation fails.
-/

namespace LocalizedSite.Command

/-- The byte that a value is. -/
def byteOf? : Json → Option UInt8
  | .integer value => if 0 ≤ value ∧ value < 256 then some (UInt8.ofNat value.toNat) else none
  | _ => none

/-- The content that a message gives for a file. -/
def contentOf? : Json → Option Content
  | .string text => some (.text text)
  | .array items => (items.mapM byteOf?).map fun bytes ↦ .ofBytes ⟨bytes.toArray⟩
  | _ => none

/-- How a message gives the content of a file. -/
def contentMessage : Content → Json
  | .text text => .string text
  | .bytes bytes => .array (bytes.toList.map fun byte ↦ .integer byte.toNat)

/-- Put a file of a message into a tree. -/
def addFile (tree : FileTree) (file : Text × Json) : Option FileTree := do
  let content ← contentOf? file.2
  (tree.writeMaking (.ofText file.1) content).toOption

/-- The files of a message. -/
def filesOf? (message : Json) : Option FileTree :=
  (((message.member? "files".toList).bind Json.members?).getD []).foldlM addFile .empty

/-- The texts of an object. -/
def textMembers (value : Json) : List (Text × Text) :=
  (value.members?.getD []).filterMap fun (name, value) ↦ value.string?.map (name, ·)

/-- The surroundings that a message describes. -/
def surroundingsOf (message : Json) : Surroundings where
  environment := textMembers ((message.member? "variables".toList).getD .null)
  today := ((message.member? "today".toList).bind Json.string?).getD []

/-- The message about what was printed and the files afterwards. -/
def runMessage (printed : Printed) (tree : FileTree) : Json :=
  let files := (tree.files (.ofText [])).map fun (path, content) ↦ (path, contentMessage content)
  .object [
    ("output".toList, .array (printed.output.map .string)),
    ("errors".toList, .array (printed.errors.map .string)),
    ("status".toList, .integer printed.status),
    ("files".toList, .object files)]

/-- The connection that reaches nothing. -/
def noConnection : Translate.Transport Unit := fun state _ ↦
  (.unreachable "no connection".toList, state)

/-- Run a command on files; a fault is printed as a failure. -/
def runOn (tree : FileTree) (surroundings : Surroundings) (invocation : Invocation) :
    Printed × FileTree :=
  match (run noConnection () surroundings invocation).run.run tree with
  | (.ok (printed, ()), tree) => (printed, tree)
  | (.error fault, tree) => (.failure ("Error: ".toList ++ fault.message), tree)

/-- What is printed for a message that describes no run. -/
def malformedMessage : Printed :=
  .failure "Error: the message does not describe the files of a site.".toList

/-- Run a command line on the files of a message. -/
def answer (arguments : List Text) (message : Text) : Printed × FileTree :=
  match (Json.parse message).toOption.bind fun message ↦ (filesOf? message).map (message, ·) with
  | none => (malformedMessage, .empty)
  | some (message, tree) =>
    let surroundings := surroundingsOf message
    match Invocation.ofArguments surroundings arguments with
    | .ok invocation => runOn tree surroundings invocation
    | .error fault => (.failure fault.message, tree)

end LocalizedSite.Command
