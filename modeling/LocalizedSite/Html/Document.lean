import LocalizedSite.Entries
import LocalizedSite.Html.Lexer

/-!
# Documents

A document is a forest of elements and strings. It is built from tokens with a stack of open
elements: an end tag closes the nearest open element of its name with everything inside it, and is
ignored if there is none; no element is closed by implication, except for the void ones, which are
closed at once. Text between two markup constructs is one string.
-/

namespace LocalizedSite.Html

/-- What a string in a document is. -/
inductive StringKind where
  /-- Text of the document. -/
  | prose
  /-- Text inside a script, style, template or ruby annotation element. -/
  | embedded
  /-- The content of a character data section. -/
  | characterData
  | comment
  | doctype
  | declaration
  | instruction
deriving DecidableEq, Repr

/-- A node of a document. -/
inductive Node where
  | element (name : Text) (attributes : Entries Text) (children : List Node)
  | string (kind : StringKind) (content : Text)

/-- The elements that have no content and no end tag. -/
def voidElements : List Text :=
  ["area", "base", "br", "col", "embed", "hr", "img", "input", "keygen", "link", "menuitem",
   "meta", "param", "source", "track", "wbr", "basefont", "bgsound", "command", "frame", "image",
   "isindex", "nextid", "spacer"].map String.toList

/-- The elements whose text is not prose. -/
def containerElements : List Text :=
  ["rt", "rp", "style", "script", "template"].map String.toList

/-- An open element with its children so far, last first. -/
structure Frame where
  /-- The name of the element. -/
  name : Text
  /-- Its attributes. -/
  attributes : Entries Text
  /-- Its children so far, last first. -/
  children : List Node

/-- A document under construction. -/
structure Builder where
  /-- The open elements, innermost first. -/
  frames : List Frame
  /-- The finished nodes outside of every element, last first. -/
  roots : List Node
  /-- The pieces of the open string, last first. -/
  pieces : List Text
  /-- The void elements for which one end tag is still to be skipped. -/
  skipped : List Text

namespace Builder

/-- The builder of an empty document. -/
def empty : Builder := ⟨[], [], [], []⟩

/-- Add a finished node to the innermost open element. -/
def add (node : Node) (builder : Builder) : Builder :=
  match builder.frames with
  | [] => { builder with roots := node :: builder.roots }
  | frame :: frames =>
    { builder with frames := { frame with children := node :: frame.children } :: frames }

/-- Whether text that comes now is inside an element whose text is not prose. -/
def insideContainer (builder : Builder) : Bool :=
  builder.frames.any fun frame ↦ containerElements.contains frame.name

/-- Finish the open string. -/
def flush (builder : Builder) : Builder :=
  if builder.pieces.isEmpty then builder
  else
    let kind : StringKind := if builder.insideContainer then .embedded else .prose
    let content := builder.pieces.reverse.flatten
    add (.string kind content) { builder with pieces := [] }

/-- Close the innermost open element. -/
def closeInnermost (builder : Builder) : Builder :=
  match builder.frames with
  | [] => builder
  | frame :: frames =>
    add (.element frame.name frame.attributes frame.children.reverse) { builder with frames }

/-- Close the innermost open elements, `count` of them. -/
def closeMany : Nat → Builder → Builder
  | 0, builder => builder
  | count + 1, builder => closeMany count builder.closeInnermost

/-- Close the nearest open element of a name with everything inside it. -/
def close (name : Text) (builder : Builder) : Builder :=
  let builder := builder.flush
  match builder.frames.findIdx? fun frame ↦ frame.name == name with
  | none => builder
  | some index => closeMany (index + 1) builder

/-- Take an end tag: it may be the one to be skipped after a void element. -/
def finish (name : Text) (builder : Builder) : Builder :=
  if builder.skipped.contains name then
    { builder with skipped := builder.skipped.erase name }
  else close name builder

/-- Open an element. -/
def openElement (name : Text) (attributes : List Attribute) (builder : Builder) : Builder :=
  let builder := builder.flush
  let attributes := Entries.ofList (attributes.map fun (name, value) ↦ (name, value.getD []))
  { builder with frames := ⟨name, attributes, []⟩ :: builder.frames }

/-- Add a string of its own. -/
def addString (kind : StringKind) (content : Text) (builder : Builder) : Builder :=
  add (.string kind content) builder.flush

/-- What begins a character data section after `<![`. -/
def characterDataMark : Text := "CDATA[".toList

/-- Take one token. -/
def take (builder : Builder) : Token → Builder
  | .start name attributes selfClosing =>
    let opened := openElement name attributes builder
    if selfClosing then finish name opened
    else if voidElements.contains name then
      let closed := close name opened
      { closed with skipped := name :: closed.skipped }
    else opened
  | .finish name => finish name builder
  | .text data => { builder with pieces := data :: builder.pieces }
  | .comment data => addString .comment data builder
  | .doctype data => addString .doctype (data.drop 8) builder
  | .section data =>
    if Text.upper (data.take characterDataMark.length) = characterDataMark then
      addString .characterData (data.drop characterDataMark.length) builder
    else addString .declaration data builder
  | .instruction data => addString .instruction data builder

/-- Close everything and give the nodes outside of every element. -/
def complete (builder : Builder) : List Node :=
  let builder := builder.flush
  (closeMany builder.frames.length builder).roots.reverse

end Builder

/-- The document that a text describes, or nothing if the text is rejected. -/
def document? (text : Text) : Option (List Node) :=
  (lex? .decoded text).map fun lexemes ↦
    ((lexemes.filterMap Lexeme.token).foldl Builder.take .empty).complete

/-- An element of a document. -/
structure Element where
  /-- The name. -/
  name : Text
  /-- The attributes; a missing value is empty. -/
  attributes : Entries Text
  /-- The nodes inside the element. -/
  children : List Node

/-- The value of an attribute of an element. -/
def Element.attribute? (element : Element) (name : String) : Option Text :=
  Entries.get? element.attributes name.toList

/-- Whether an element has a given name. -/
def Element.named (element : Element) (name : String) : Bool :=
  element.name == name.toList

mutual

/-- The elements of a node in document order. -/
def Node.elements : Node → List Element
  | .element name attributes children =>
    ⟨name, attributes, children⟩ :: elementsOf children
  | .string _ _ => []

/-- The elements of a forest in document order. -/
def elementsOf : List Node → List Element
  | [] => []
  | node :: nodes => node.elements ++ elementsOf nodes

end

mutual

/-- The strings of a node in document order. -/
def Node.strings : Node → List (StringKind × Text)
  | .element _ _ children => stringsOf children
  | .string kind content => [(kind, content)]

/-- The strings of a forest in document order. -/
def stringsOf : List Node → List (StringKind × Text)
  | [] => []
  | node :: nodes => node.strings ++ stringsOf nodes

end

/-- The prose inside a forest, each string trimmed. -/
def proseOf (nodes : List Node) : Text :=
  ((stringsOf nodes).filter fun (kind, _) ↦ kind == .prose || kind == .characterData).flatMap
    fun (_, content) ↦ Text.trim content

end LocalizedSite.Html
