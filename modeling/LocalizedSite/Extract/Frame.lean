import LocalizedSite.Extract.Body
import LocalizedSite.Extract.Harvest
import LocalizedSite.Extract.Vocabulary

/-!
# What frames a page

The navigation, the footer and the region popup are alike on many pages, so that what is taken from
them goes to the shared texts.

## Navigation

The labels of the vocabulary become shared texts inside every list of navigation links. The first
such list is followed by the language switcher, unless the document has one already.
-/

namespace LocalizedSite.Extract

/-- Read a list of navigation links. -/
def recognizeNavigation : Recognizer Slot :=
  Slot.between "<ul class=\"nav-links\">".toList "</ul>".toList

/-- Share the labels of links that the vocabulary knows. -/
def shareLinkLabels (labels : Entries Text) : Pass :=
  inOrder (labels.map fun (label, key) ↦ shareLiteral ['>'] label "</a>".toList key)

/-- The language switcher on a line of its own. -/
def switcherLine : Text :=
  "\n        ".toList ++ Structural.text .langSwitcher

/-- Rewrite one list of links; the state tells whether a switcher is still wanted. -/
def rewriteNavigation (labels : Entries Text) (state : Bool × Harvest) (slot : Slot) :
    Text × Bool × Harvest :=
  let (content, harvest) := shareLinkLabels labels state.2 slot.content
  let block := slot.withContent content
  (if state.1 then block ++ switcherLine else block, false, harvest)

/-- Rewrite every list of navigation links. -/
def navigation (labels : Entries Text) : Pass := fun harvest html ↦
  let wanted := !Text.contains html (Structural.text .langSwitcher)
  let (html, _, harvest) :=
    (Cuts.all recognizeNavigation html).rewrite (rewriteNavigation labels) (wanted, harvest)
  (html, harvest)

/-!
## The footer

In the first footer the tagline, the column headings, the links, the disclaimer and the reservation
of rights behind the site's name become shared texts.
-/

/-- Share a literal text, without the blanks around it, under a fixed key. -/
def sharedText (key : Text) : Choice := fun harvest content ↦
  if isLiteral content then some (harvest.addShared key (Text.trim content)) else none

/-- Read the footer. -/
def recognizeFooter : Recognizer Slot :=
  Slot.between "<footer class=\"footer\">".toList "</footer>".toList

/-- The beginnings of a copyright line. -/
def copyrightSigns : List Text :=
  ["&copy;".toList, "©".toList]

/-- Read a copyright line: the sign, a year, the site's name and a point; then, up to a link, the
reservation of rights. -/
def recognizeRights (brand : Text) : Recognizer Slot := fun text ↦
  copyrightSigns.findSome? fun sign ↦ do
    let rest ← Text.after? (sign ++ [' ']) text
    let (year, rest) := rest.span Text.isDecimalDigit
    if year.isEmpty then none
    else
      let name := ' ' :: brand ++ ". ".toList
      let rest ← Text.after? name rest
      let (slot, rest) ← plainContent [] "<a".toList rest
      return (slot.extendOpening (sign ++ ' ' :: year ++ name), rest)

/-- Share the reservation of rights, and leave one space before the link. -/
def rightsText : Choice := fun harvest content ↦
  (sharedText "footer_rights".toList harvest content).map fun (reference, harvest) ↦
    (reference ++ [' '], harvest)

/-- The passes over the content of a footer; without a name of the site there is no copyright
line. -/
def footerPasses (vocabulary : Vocabulary) (brand : Text) : Pass :=
  inOrder (
    [rewriteFirst (plainContent "<p class=\"footer-tagline\">".toList "</p>".toList)
      (sharedText "footer_tagline".toList)] ++
    (vocabulary.footerHeadings.map fun (label, key) ↦
      shareLiteral "<h4>".toList label "</h4>".toList key) ++
    [shareLinkLabels vocabulary.footerLinks,
      rewriteFirst (plainContent "<p class=\"disclaimer\">".toList "</p>".toList)
        (sharedText "footer_disclaimer".toList)] ++
    if brand.isEmpty then [] else [rewriteFirst (recognizeRights brand) rightsText])

/-- Share the texts of the first footer. -/
def footer (vocabulary : Vocabulary) (brand : Text) : Pass :=
  rewriteFirst recognizeFooter fun harvest content ↦
    some (footerPasses vocabulary brand harvest content)

/-!
## The region popup

The title, the subtitle and the discount text of the popup that asks for the visitor's region become
shared texts, and so do the names of the regions.
-/

/-- Read a button without inner markup and the heading on a later line. -/
def recognizeButtonHeading : Recognizer Slot := fun text ↦ do
  let rest ← Text.after? "<button".toList text
  let (inside, rest) ← Text.cut? ['>'] rest
  let (label, rest) := rest.span (· != '<')
  let rest ← Text.after? "</button>".toList rest
  let (blanks, rest) := rest.span Text.isBlank
  if !blanks.contains '\n' then none
  else
    let (slot, rest) ← plainContent "<h3>".toList "</h3>".toList rest
    return (slot.extendOpening
      ("<button".toList ++ inside ++ '>' :: label ++ "</button>".toList ++ blanks), rest)

/-- Read the popup up to the heading behind its first button that has one. -/
def recognizePopupTitle : Recognizer Slot := fun text ↦ do
  let opening := "<div class=\"region-popup-content\">".toList
  let rest ← Text.after? opening text
  let (before, slot, following) ← recognizeButtonHeading.first? rest
  return (slot.extendOpening (opening ++ before), following)

/-- Share the texts of the region popup. -/
def regionPopup (vocabulary : Vocabulary) : Pass :=
  inOrder (
    [rewriteFirst recognizePopupTitle (sharedText "region_title".toList),
      rewriteFirst (plainContent "<p class=\"region-popup-subtitle\">".toList "</p>".toList)
        (sharedText "region_subtitle".toList),
      rewriteFirst (Slot.between "<p class=\"region-discount\">".toList "</p>".toList)
        (sharedText "region_discount_text".toList)] ++
    vocabulary.regionNames.map fun (name, key) ↦
      shareLiteral "<span class=\"region-name\">".toList name "</span>".toList key)

end LocalizedSite.Extract
