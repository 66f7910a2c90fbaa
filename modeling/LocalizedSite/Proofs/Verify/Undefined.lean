import LocalizedSite.Proofs.Html.RawText
import LocalizedSite.Verify.Document
import Mathlib.Algebra.BigOperators.Group.List.Basic
import Mathlib.Algebra.GroupWithZero.Nat

/-!
# Counting missing values

What the count of missing values finds in a document, and what it passes over (`count_undefined_eq`).
Attributes whose value is a list of words and text outside of every element are not counted, whereas a
comment inside an element counts like text.
-/

namespace LocalizedSite

namespace Html

/-- Whether a string is text of the document, and no comment or declaration. -/
def StringKind.isText : StringKind → Bool
  | .prose | .embedded | .characterData => true
  | .comment | .doctype | .declaration | .instruction => false

mutual

/-- The strings of a node outside of raw text elements, in document order. -/
def Node.shownStrings : Node → List (StringKind × Text)
  | .element name _ children => if rawTextElements.contains name then [] else shownStringsOf children
  | .string kind content => [(kind, content)]

/-- The strings of a forest outside of raw text elements, in document order. -/
def shownStringsOf : List Node → List (StringKind × Text)
  | [] => []
  | node :: nodes => node.shownStrings ++ shownStringsOf nodes

end

/-- The strings of a document outside of every element. -/
def topStringsOf (document : List Node) : List (StringKind × Text) :=
  document.flatMap fun node ↦
    match node with
    | .element _ _ _ => []
    | .string kind content => [(kind, content)]

/-- The strings of a document inside of elements, but outside of raw text elements. -/
def innerStringsOf (document : List Node) : List (StringKind × Text) :=
  document.flatMap fun node ↦
    match node with
    | .element name attributes children => Node.shownStrings (.element name attributes children)
    | .string _ _ => []

/-- A shown string stands inside of an element or outside of every one. -/
theorem countP_shown_strings (test : StringKind × Text → Bool) (document : List Node) :
    (shownStringsOf document).countP test =
      (topStringsOf document).countP test + (innerStringsOf document).countP test := by
  induction document with
  | nil => simp [shownStringsOf, topStringsOf, innerStringsOf]
  | cons node document ih =>
      rw [shownStringsOf, List.countP_append, ih]
      cases node with
      | element name attributes children =>
          simp only [topStringsOf, innerStringsOf, List.flatMap_cons, List.countP_append, List.nil_append]
          omega
      | string kind content =>
          simp only [topStringsOf, innerStringsOf, List.flatMap_cons, List.countP_append, List.nil_append,
            Node.shownStrings]
          omega

end Html

namespace Verify

open Html

/-- Whether a string shows a missing value. -/
def isUndefined (shown : StringKind × Text) : Bool :=
  Text.trim shown.2 == undefinedMark

/-- The number of texts among strings that show a missing value. -/
def undefinedTexts (strings : List (StringKind × Text)) : Nat :=
  strings.countP fun shown ↦ isUndefined shown && shown.1.isText

/-- The number of strings that show a missing value and are no text. -/
def undefinedOthers (strings : List (StringKind × Text)) : Nat :=
  strings.countP fun shown ↦ isUndefined shown && !shown.1.isText

/-- The number of attributes of a document whose value is the mark of a missing value. -/
def leakedAttributes (document : List Node) : Nat :=
  ((elementsOf document).map fun element ↦
    element.attributes.countP fun (_, value) ↦ value == undefinedMark).sum

/-- The number of such attributes whose value is a list of words. -/
def leakedWordLists (document : List Node) : Nat :=
  ((elementsOf document).map fun element ↦ element.attributes.countP fun (name, value) ↦
    value == undefinedMark && isWordList element.name name).sum

section Strings

/-- The number of strings directly inside an element that show a missing value. -/
def undefinedStrings (element : Element) : Nat :=
  if rawTextElements.contains element.name then 0 else element.children.countP isUndefinedString

/-- Strings are texts or something else. -/
theorem undefined_split (strings : List (StringKind × Text)) :
    strings.countP isUndefined = undefinedTexts strings + undefinedOthers strings := by
  induction strings with
  | nil => rfl
  | cons shown strings ih =>
      simp only [undefinedTexts, undefinedOthers, List.countP_cons] at ih ⊢
      rw [ih]
      cases isUndefined shown <;> cases shown.1.isText <;> simp <;> omega

mutual

/-- The strings of a node that show a missing value are itself and those found at its elements. -/
theorem strings_of_node : (node : Node) → node.IsFlat →
    [node].countP isUndefinedString + (node.elements.map undefinedStrings).sum =
      node.shownStrings.countP isUndefined
  | .string kind content, _ => by
      simp [Node.elements, Node.shownStrings, isUndefinedString, isUndefined, List.countP_cons]
  | .element name attributes children, h => by
      obtain ⟨hholds, hchildren⟩ := is_flat_element_iff.mp h
      have hforest := strings_of_forest children hchildren
      have hnode : [Node.element name attributes children].countP isUndefinedString = 0 := rfl
      rw [hnode, Node.elements, List.map_cons, List.sum_cons, Node.shownStrings, undefinedStrings]
      split
      · next hraw =>
          have hnone : elementsOf children = [] := by
            rw [elements_eq_flatMap, List.flatMap_eq_nil_iff]
            exact fun child hmem ↦ (hholds hraw child hmem).elements_eq
          rw [hnone]
          rfl
      · show 0 + (children.countP isUndefinedString + _) = _
        omega

/-- The strings of a forest that show a missing value are its nodes and those found at its elements. -/
theorem strings_of_forest : (nodes : List Node) → (∀ node ∈ nodes, node.IsFlat) →
    nodes.countP isUndefinedString + ((elementsOf nodes).map undefinedStrings).sum =
      (shownStringsOf nodes).countP isUndefined
  | [], _ => by simp [elementsOf, shownStringsOf]
  | node :: nodes, h => by
      obtain ⟨hnode, hnodes⟩ := List.forall_mem_cons.mp h
      have hfirst := strings_of_node node hnode
      have hothers := strings_of_forest nodes hnodes
      have hcount : (node :: nodes).countP isUndefinedString =
          [node].countP isUndefinedString + nodes.countP isUndefinedString := by
        rw [← List.singleton_append, List.countP_append]
      rw [hcount, elementsOf, shownStringsOf, List.map_append, List.sum_append, List.countP_append]
      omega

end

/-- The nodes of a document that are strings are those outside of every element. -/
theorem countP_top_strings (document : List Node) :
    (topStringsOf document).countP isUndefined = document.countP isUndefinedString := by
  induction document with
  | nil => rfl
  | cons node document ih =>
      rw [List.countP_cons, ← ih]
      cases node with
      | element name attributes children => simp [topStringsOf, isUndefinedString]
      | string kind content =>
          simp [topStringsOf, isUndefinedString, isUndefined, List.countP_cons, Nat.add_comm]

/-- The strings found at the elements of a document are those inside of elements. -/
theorem inner_strings {document : List Node} (h : ∀ node ∈ document, node.IsFlat) :
    ((elementsOf document).map undefinedStrings).sum =
      (innerStringsOf document).countP isUndefined := by
  have hforest := strings_of_forest document h
  rw [countP_shown_strings, countP_top_strings] at hforest
  omega

end Strings

section Attributes

/-- An attribute with the mark is counted at its element, or its value is a list of words. -/
theorem attributes_of_elements (elements : List Element) :
    (elements.map undefinedAttributes).sum +
      (elements.map fun element ↦ element.attributes.countP fun (name, value) ↦
        value == undefinedMark && isWordList element.name name).sum =
      (elements.map fun element ↦ element.attributes.countP fun (_, value) ↦
        value == undefinedMark).sum := by
  have hattributes (element : Text) (attributes : Entries Text) :
      (attributes.countP fun (name, value) ↦ value == undefinedMark && !isWordList element name) +
        (attributes.countP fun (name, value) ↦ value == undefinedMark && isWordList element name) =
        attributes.countP fun (_, value) ↦ value == undefinedMark := by
    induction attributes with
    | nil => rfl
    | cons entry attributes ih =>
        simp only [List.countP_cons] at ih ⊢
        rw [← ih]
        cases entry.2 == undefinedMark <;> cases isWordList element entry.1 <;> simp <;> omega
  induction elements with
  | nil => rfl
  | cons element elements ih =>
      have helement := hattributes element.name element.attributes
      simp only [List.map_cons, List.sum_cons]
      exact (Nat.add_add_add_comm ..).trans (congrArg₂ (· + ·) helement ih)

end Attributes

/-- In a document there are as many missing values counted as there are attributes with the mark, of any
name and on any element, and texts that show it outside of script and style elements, at any depth, except
that attributes whose value is a list of words and texts outside of every element are passed over, and
strings inside an element that are no text are counted as well. -/
theorem count_undefined_eq {html : Text} {document : List Node} (h : document? html = some document) :
    countUndefined document + (leakedWordLists document + undefinedTexts (topStringsOf document)) =
      leakedAttributes document + undefinedTexts (shownStringsOf document) +
        undefinedOthers (innerStringsOf document) := by
  have hattributes := attributes_of_elements (elementsOf document)
  have hstrings := inner_strings (document_is_flat h)
  rw [undefined_split] at hstrings
  have htexts : undefinedTexts (shownStringsOf document) =
      undefinedTexts (topStringsOf document) + undefinedTexts (innerStringsOf document) :=
    countP_shown_strings _ document
  have hcount : countUndefined document = ((elementsOf document).map undefinedAttributes).sum +
      ((elementsOf document).map undefinedStrings).sum := by
    rw [countUndefined, ← List.sum_eq_foldr, ← List.sum_map_add]
    rfl
  unfold leakedWordLists leakedAttributes
  omega

/-- Of two attributes and two texts that show a missing value, a class and a text outside of the paragraph
are passed over, and a comment is counted. -/
theorem count_undefined_eq_paragraph :
    ∃ document, document? ("undefined<p class=\"undefined\" title=\"undefined\">undefined".toList ++
        "<!--undefined--></p><script>undefined</script>".toList) = some document ∧
      leakedAttributes document + undefinedTexts (shownStringsOf document) = 4 ∧
      countUndefined document = 3 := by
  have hdocument : document? ("undefined<p class=\"undefined\" title=\"undefined\">undefined".toList ++
      "<!--undefined--></p><script>undefined</script>".toList) =
      some [.string .prose undefinedMark,
        .element "p".toList [("class".toList, undefinedMark), ("title".toList, undefinedMark)]
          [.string .prose undefinedMark, .string .comment undefinedMark],
        .element "script".toList [] [.string .embedded undefinedMark]] := rfl
  have hcount := count_undefined_eq hdocument
  generalize hnodes : [Node.string .prose undefinedMark, _, _] = document at hdocument hcount
  have hclaimed : leakedAttributes document + undefinedTexts (shownStringsOf document) = 4 := by
    rw [← hnodes]
    decide
  have hpassed : leakedWordLists document + undefinedTexts (topStringsOf document) = 2 := by
    rw [← hnodes]
    decide
  have hothers : undefinedOthers (innerStringsOf document) = 1 := by
    rw [← hnodes]
    decide
  exact ⟨document, hdocument, hclaimed, by omega⟩

end Verify

end LocalizedSite
