import LocalizedSite.Html.Document

/-!
# Properties of a rendered document

What the checks look for in one document: places where a missing value was written as `undefined`,
and a robots directive against indexing.
-/

namespace LocalizedSite.Verify

open Html

/-- The text that a missing value leaves behind. -/
def undefinedMark : Text := "undefined".toList

/-- Attributes whose value is a list of words, with the elements for which that holds; none means
every element. -/
def wordListAttributes : List (Text × List Text) :=
  [("class", []), ("accesskey", []), ("dropzone", []), ("rel", ["a", "link", "area"]),
   ("rev", ["a", "link"]), ("headers", ["td", "th"]), ("accept-charset", ["form"]),
   ("archive", ["object"]), ("sizes", ["icon"]), ("sandbox", ["iframe"]),
   ("for", ["output"])].map fun (name, elements) ↦
    (String.toList name, elements.map String.toList)

/-- Whether the value of an attribute is a list of words rather than one text. -/
def isWordList (element property : Text) : Bool :=
  match wordListAttributes.lookup property with
  | some elements => elements.isEmpty || elements.contains element
  | none => false

/-- The number of attributes of an element whose value is the mark of a missing value. -/
def undefinedAttributes (element : Element) : Nat :=
  element.attributes.countP fun (name, value) ↦
    value == undefinedMark && !isWordList element.name name

/-- Whether a node is a string that shows a missing value. -/
def isUndefinedString : Node → Bool
  | .string _ content => Text.trim content == undefinedMark
  | .element _ _ _ => false

/-- The number of missing values shown by an element itself: in its attributes, and in the strings
directly inside it unless it holds raw text. -/
def undefinedIn (element : Element) : Nat :=
  undefinedAttributes element +
    if rawTextElements.contains element.name then 0
    else element.children.countP isUndefinedString

/-- The number of missing values shown by a document. -/
def countUndefined (document : List Node) : Nat :=
  ((elementsOf document).map undefinedIn).foldr (· + ·) 0

/-- The names of meta elements that speak to search engines. -/
def robotNames : List Text :=
  ["robots".toList, "googlebot".toList]

/-- Whether an element tells search engines not to index the page. -/
def forbidsIndexing (element : Element) : Bool :=
  element.named "meta" &&
    match element.attribute? "name", element.attribute? "content" with
    | some name, some content =>
      robotNames.contains (Text.lower name) &&
        Text.contains (Text.lower content) "noindex".toList
    | _, _ => false

/-- Whether a document tells search engines not to index it. -/
def hasNoindex (document : List Node) : Bool :=
  (elementsOf document).any forbidsIndexing

end LocalizedSite.Verify
