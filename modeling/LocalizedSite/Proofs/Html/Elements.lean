import LocalizedSite.Html.Document
import Mathlib.Data.List.Basic

/-!
# The elements of a document

The elements of a document in document order are the start tags of its text in their order, whatever the
end tags close (`elements_document`): a builder keeps the elements opened so far in that order, and only
a start tag adds one (`headings_take`).
-/

namespace LocalizedSite.Html

/-- What a start tag says of its element: the name and the attributes. -/
abbrev Heading := Text × Entries Text

/-- The heading of an element. -/
def Element.heading (element : Element) : Heading :=
  (element.name, element.attributes)

/-- The attributes of an element, from those of its start tag; a missing value is empty. -/
def elementAttributes (attributes : List Attribute) : Entries Text :=
  Entries.ofList (attributes.map fun (name, value) ↦ (name, value.getD []))

/-- The heading of the element that a token opens. -/
def Token.heading? : Token → Option Heading
  | .start name attributes _ => some (name, elementAttributes attributes)
  | _ => none

/-- The headings of the elements that lexemes open. -/
def openedBy (lexemes : List Lexeme) : List Heading :=
  (lexemes.filterMap Lexeme.token).filterMap Token.heading?

/-- The headings of the elements of a forest in document order. -/
def headingsOf (nodes : List Node) : List Heading :=
  (elementsOf nodes).map Element.heading

/-- The elements of a forest are those of its nodes in order. -/
theorem elements_eq_flatMap (nodes : List Node) : elementsOf nodes = nodes.flatMap Node.elements := by
  induction nodes with
  | nil => simp [elementsOf]
  | cons node nodes ih => simp [elementsOf, ih]

theorem elements_append (first second : List Node) :
    elementsOf (first ++ second) = elementsOf first ++ elementsOf second := by
  simp [elements_eq_flatMap]

@[simp]
theorem headings_nil : headingsOf [] = [] := by
  simp [headingsOf, elementsOf]

@[simp]
theorem headings_append (first second : List Node) :
    headingsOf (first ++ second) = headingsOf first ++ headingsOf second := by
  simp [headingsOf, elements_append]

@[simp]
theorem headings_string (kind : StringKind) (content : Text) :
    headingsOf [.string kind content] = [] := by
  simp [headingsOf, elementsOf, Node.elements]

@[simp]
theorem headings_element (name : Text) (attributes : Entries Text) (children : List Node) :
    headingsOf [.element name attributes children] = (name, attributes) :: headingsOf children := by
  simp [headingsOf, elementsOf, Node.elements, Element.heading]

/-- The headings of an open element and of the elements inside it so far. -/
def Frame.headings (frame : Frame) : List Heading :=
  (frame.name, frame.attributes) :: headingsOf frame.children.reverse

namespace Builder

/-- The headings of the elements opened so far, in document order. -/
def headings (builder : Builder) : List Heading :=
  headingsOf builder.roots.reverse ++ builder.frames.reverse.flatMap Frame.headings

/-- A node that is added comes last. -/
theorem headings_add (node : Node) (builder : Builder) :
    (add node builder).headings = builder.headings ++ headingsOf [node] := by
  obtain ⟨frames, roots, pieces, skipped⟩ := builder
  cases frames with
  | nil => simp [add, headings]
  | cons frame frames => simp [add, headings, Frame.headings]

/-- Finishing the open string adds no element. -/
theorem headings_flush (builder : Builder) : builder.flush.headings = builder.headings := by
  simp only [flush]
  split
  · rfl
  · rw [headings_add, headings_string, List.append_nil]
    rfl

/-- Adding a string adds no element. -/
theorem headings_add_string (kind : StringKind) (content : Text) (builder : Builder) :
    (addString kind content builder).headings = builder.headings := by
  simp [addString, headings_add, headings_flush]

/-- The innermost open element keeps its place when it is closed. -/
theorem headings_close_innermost (builder : Builder) :
    builder.closeInnermost.headings = builder.headings := by
  obtain ⟨frames, roots, pieces, skipped⟩ := builder
  cases frames with
  | nil => rfl
  | cons frame frames =>
      simp only [closeInnermost]
      rw [headings_add]
      simp [headings, Frame.headings]

theorem headings_close_many (count : Nat) (builder : Builder) :
    (closeMany count builder).headings = builder.headings := by
  induction count generalizing builder with
  | zero => rfl
  | succ count ih => rw [closeMany, ih, headings_close_innermost]

theorem headings_close (name : Text) (builder : Builder) :
    (close name builder).headings = builder.headings := by
  simp only [close]
  split
  · exact headings_flush builder
  · rw [headings_close_many, headings_flush]

/-- End tags open no element. -/
theorem headings_finish (name : Text) (builder : Builder) :
    (finish name builder).headings = builder.headings := by
  simp only [finish]
  split
  · rfl
  · exact headings_close name builder

/-- An element that is opened comes last. -/
theorem headings_open_element (name : Text) (attributes : List Attribute) (builder : Builder) :
    (openElement name attributes builder).headings =
      builder.headings ++ [(name, elementAttributes attributes)] := by
  rw [← headings_flush builder]
  simp [openElement, headings, Frame.headings, elementAttributes]

/-- One token adds the element that it opens. -/
theorem headings_take (builder : Builder) (token : Token) :
    (builder.take token).headings = builder.headings ++ token.heading?.toList := by
  cases token with
  | start name attributes selfClosing =>
      have hopen := headings_open_element name attributes builder
      simp only [take]
      split
      · rw [headings_finish, hopen]
        rfl
      · split
        · have hclosed := headings_close name (openElement name attributes builder)
          rw [hopen] at hclosed
          exact hclosed
        · exact hopen
  | finish name => simp [take, headings_finish, Token.heading?]
  | text data => simp [take, headings, Token.heading?]
  | comment data => simp [take, headings_add_string, Token.heading?]
  | doctype data => simp [take, headings_add_string, Token.heading?]
  | «section» data =>
      simp only [take]
      split <;> simp [headings_add_string, Token.heading?]
  | instruction data => simp [take, headings_add_string, Token.heading?]

/-- Tokens add the elements that they open, in order. -/
theorem headings_foldl (builder : Builder) (tokens : List Token) :
    (tokens.foldl take builder).headings = builder.headings ++ tokens.filterMap Token.heading? := by
  induction tokens generalizing builder with
  | nil => simp
  | cons token tokens ih =>
      rw [List.foldl_cons, ih, headings_take, List.append_assoc]
      cases hheading : token.heading? <;> simp [hheading]

/-- Closing as many elements as are open leaves none open. -/
theorem frames_close_many (count : Nat) (builder : Builder) :
    (closeMany count builder).frames.length = builder.frames.length - count := by
  induction count generalizing builder with
  | zero => rfl
  | succ count ih =>
      rw [closeMany, ih]
      have hinnermost : builder.closeInnermost.frames.length = builder.frames.length - 1 := by
        obtain ⟨frames, roots, pieces, skipped⟩ := builder
        cases frames with
        | nil => rfl
        | cons frame frames => cases frames <;> simp [closeInnermost, add]
      omega

/-- A completed document has the elements that were opened. -/
theorem headings_complete (builder : Builder) : headingsOf builder.complete = builder.headings := by
  have hheadings := headings_close_many builder.flush.frames.length builder.flush
  have hframes := frames_close_many builder.flush.frames.length builder.flush
  rw [Nat.sub_self, List.length_eq_zero_iff] at hframes
  rw [headings_flush] at hheadings
  rw [← hheadings, headings, hframes]
  simp [complete]

end Builder

/-- The elements of a document in document order are the start tags among its tokens. -/
theorem elements_document {text : Text} {lexemes : List Lexeme}
    (h : lex? .decoded text = some lexemes) :
    ∃ document, document? text = some document ∧ headingsOf document = openedBy lexemes := by
  refine ⟨_, by rw [document?, h, Option.map_some], ?_⟩
  rw [Builder.headings_complete, Builder.headings_foldl]
  rfl

end LocalizedSite.Html
