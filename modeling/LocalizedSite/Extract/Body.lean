import LocalizedSite.Extract.Harvest
import LocalizedSite.Extract.OpaqueRegion
import LocalizedSite.Extract.Vocabulary
import LocalizedSite.Extract.Worth

/-!
# Body text

Body text is taken line by line, outside of opaque regions and of lines that hold a reference
already. On each line a heading of each level, a paragraph, a badge of each known class, a button
and a link of each known class are taken at most once, and every table header and cell label.
-/

namespace LocalizedSite.Extract

/-- Read the start tag of an element, with attributes or without. -/
def readOpening (element text : Text) : Option (Text × Text) := do
  let opening := '<' :: element
  let rest ← Text.after? opening text
  match rest with
  | '>' :: rest => return (opening ++ ['>'], rest)
  | character :: _ =>
    if Text.isBlank character then
      let (inside, rest) ← Text.cut? ['>'] rest
      return (opening ++ inside ++ ['>'], rest)
    else none
  | [] => none

/-- Read an element on one line: the content has at least one character and ends at the first end
tag after it. -/
def recognizeElement (element : Text) : Recognizer Slot := fun text ↦ do
  let (opening, rest) ← readOpening element text
  match rest with
  | [] => none
  | first :: rest =>
    let closing := "</".toList ++ element ++ ['>']
    let (content, following) ← Text.cut? closing rest
    return (⟨opening, first :: content, closing⟩, following)

/-- Read a table header without markup or braces inside. -/
def recognizeHeader : Recognizer Slot := fun text ↦ do
  let (opening, rest) ← readOpening "th".toList text
  let (content, rest) := rest.span fun character ↦ character != '<' && character != '\x7b'
  let closing := "</th>".toList
  let rest ← Text.after? closing rest
  if content.isEmpty then none else some (⟨opening, content, closing⟩, rest)

/-- Read the label of a table cell. -/
def recognizeLabel : Recognizer Slot :=
  Slot.nonempty (Slot.run "data-label=\"".toList (· != '"') ['"'])

/-- Read plain text up to an end tag. -/
def plainContent (opening closing : Text) : Recognizer Slot :=
  Slot.nonempty (Slot.run opening (· != '<') closing)

/-- Read a span whose class attribute begins with a class. -/
def recognizeSpan (cssClass : Text) : Recognizer Slot := fun text ↦ do
  let opening := "<span class=\"".toList ++ cssClass
  let rest ← Text.after? opening text
  let (others, rest) := rest.span (· != '"')
  let rest ← Text.after? "\">".toList rest
  let (slot, rest) ← plainContent [] "</span>".toList rest
  return (slot.extendOpening (opening ++ others ++ "\">".toList), rest)

/-- Read a division that has exactly one class. -/
def recognizeDivision (cssClass : Text) : Recognizer Slot :=
  plainContent ("<div class=\"".toList ++ cssClass ++ "\">".toList) "</div>".toList

/-- The places of a class attribute before the end of a tag, last first: what stands before the
attribute and what follows its opening quote. -/
def classPlaces (passed : Text) (found : List (Text × Text)) : Text → List (Text × Text)
  | [] => found
  | character :: rest =>
    if character = '>' then found
    else
      let found :=
        match Text.after? "class=\"".toList (character :: rest) with
        | some following => (passed.reverse, following) :: found
        | none => found
      classPlaces (character :: passed) found rest

/-- Read the rest of a tag after the opening quote of its class attribute, and the plain text up to
one of several end tags. The attribute must contain a mark. -/
def classedContent (mark : Text) (closings : List Text) : Recognizer Slot := fun text ↦ do
  let (value, rest) := text.span (· != '"')
  let rest ← Text.after? ['"'] rest
  if !Text.contains value mark then none
  else
    let (inside, rest) ← Text.cut? ['>'] rest
    let (slot, rest) ← closings.findSome? fun closing ↦ plainContent [] closing rest
    return (slot.extendOpening (value ++ '"' :: inside ++ ['>']), rest)

/-- Read an element of one of several names whose class attribute contains a mark. Of several class
attributes the last that fits counts. -/
def recognizeClassed (elements : List Text) (mark : Text) : Recognizer Slot := fun text ↦
  elements.findSome? fun element ↦ do
    let opening := '<' :: element
    let rest ← Text.after? opening text
    match rest with
    | [] => none
    | blank :: rest =>
      if !Text.isBlank blank then none
      else
        let closings := elements.map fun element ↦ "</".toList ++ element ++ ['>']
        (classPlaces [] [] rest).findSome? fun (before, following) ↦ do
          let (slot, following) ← classedContent mark closings following
          return (slot.extendOpening (opening ++ blank :: before ++ "class=\"".toList), following)

/-- Take a text of a category, without the blanks around it, if it is worth it. -/
def numberedText (category : Text) : Choice := fun harvest content ↦
  if isNegligible content then none else some (harvest.addNumbered category (Text.trim content))

/-- Take a text of a category if it is worth it and holds no placeholder at all. -/
def strictText (category : Text) : Choice := fun harvest content ↦
  if Placeholder.occursIn content then none else numberedText category harvest content

/-- Share the text of a table header under a key made from it. -/
def headerText : Choice := fun harvest content ↦
  let label := Text.trim content
  if isNegligible label then none else some (harvest.addShared (headerKey label) label)

/-- Share the label of a table cell under a key made from it. -/
def labelText : Choice := fun harvest content ↦
  if isLiteral content then some (harvest.addShared (labelKey content) content) else none

/-- Take the text of a button: shared if the vocabulary knows it, and the page's own otherwise. -/
def buttonText (sharedButtons : Entries Text) : Choice := fun harvest content ↦
  if isNegligible content || Placeholder.occursIn content then none
  else
    let label := Text.trim content
    match Entries.get? sharedButtons label with
    | some (initial :: key) => some (harvest.addShared (initial :: key) label)
    | _ => some (harvest.addNumbered "btn".toList label)

/-- The elements whose content is taken, with the category of each: the headings of four levels and
the paragraph. -/
def textElements : List Text :=
  ["h1", "h2", "h3", "h4", "p"].map String.toList

/-- Take the texts of one line. -/
def lineTexts (vocabulary : Vocabulary) : Pass :=
  inOrder (
    (textElements.map fun element ↦
      rewriteFirst (recognizeElement element) (numberedText element)) ++
    [rewriteEach recognizeHeader headerText, rewriteEach recognizeLabel labelText] ++
    (vocabulary.spanClasses.map fun cssClass ↦
      rewriteFirst (recognizeSpan cssClass)
        (strictText (classCategory "span".toList cssClass))) ++
    (vocabulary.divClasses.map fun cssClass ↦
      rewriteFirst (recognizeDivision cssClass)
        (strictText (classCategory "div".toList cssClass))) ++
    [rewriteFirst (recognizeClassed ["button".toList, "a".toList] "btn".toList)
      (buttonText vocabulary.sharedButtons)] ++
    (vocabulary.linkClasses.map fun cssClass ↦
      rewriteFirst (recognizeClassed ["a".toList] cssClass)
        (strictText (classCategory "link".toList cssClass))))

/-- Take the texts of numbered lines, except for those that are opaque or hold a reference. -/
def linesTexts (vocabulary : Vocabulary) (regions : List Region) :
    Nat → Harvest → List Text → List Text × Harvest
  | _, harvest, [] => ([], harvest)
  | number, harvest, line :: lines =>
    let (line, harvest) :=
      if regions.any (fun region ↦ region.covers number) || Text.contains line Reference.mark then
        (line, harvest)
      else lineTexts vocabulary harvest line
    let (lines, harvest) := linesTexts vocabulary regions (number + 1) harvest lines
    (line :: lines, harvest)

/-- Take the body text of a document, or nothing if the document is rejected. -/
def bodyTexts? (vocabulary : Vocabulary) (harvest : Harvest) (html : Text) :
    Option (Text × Harvest) :=
  (opaqueRegions? html).map fun regions ↦
    let (lines, harvest) := linesTexts vocabulary regions 0 harvest (Text.splitAt '\n' html)
    (Text.joinWith ['\n'] lines, harvest)

end LocalizedSite.Extract
