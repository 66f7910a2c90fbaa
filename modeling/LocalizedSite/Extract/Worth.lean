import LocalizedSite.Placeholder

/-!
# What is worth extracting

A text with fewer than two characters outside of inline markup, a price or another number, and a text
that begins with a placeholder need no dictionary entry. A link to a page, other than one to an
asset, needs the locale's path in front.
-/

namespace LocalizedSite.Extract

/-- Read an inline tag: everything from `<` to `>` with something between. -/
def recognizeInlineTag : Recognizer Unit := fun text ↦ do
  let following ← Text.after? ['<'] text
  let (inside, rest) := following.span (· != '>')
  let rest ← Text.after? ['>'] rest
  if inside.isEmpty then none else some ((), rest)

/-- A text without its inline tags and the blanks around it. -/
def visibleText (text : Text) : Text :=
  Text.trim ((Cuts.all recognizeInlineTag text).text fun _ ↦ [])

/-- Whether a character belongs to a number, a price or a measure. -/
def isSymbolic (character : Char) : Bool :=
  Text.isDecimalDigit character || ".,/%€$£+×~≈°".toList.contains character

/-- Whether a text is a number sign followed by digits, or digits alone. -/
def isNumericId (text : Text) : Bool :=
  let digits :=
    match text with
    | '#' :: rest => rest
    | _ => text
  !digits.isEmpty && digits.all Text.isDecimalDigit

/-- Whether a text is not worth a dictionary entry. -/
def isNegligible (text : Text) : Bool :=
  let visible := visibleText text
  visible.length < 2 || visible.all isSymbolic || isNumericId visible ||
    Text.startsWith visible openBraces || Text.startsWith (Text.trim text) openBraces

/-- The endings of asset files. -/
def assetEndings : List Text :=
  [".css", ".js", ".svg", ".png", ".jpg", ".jpeg", ".webp", ".json", ".ico", ".xml",
   ".txt"].map String.toList

/-- The beginnings of asset paths. -/
def assetBeginnings : List Text :=
  ["/images/", "/_vercel/", "/favicon", "/apple-touch"].map String.toList

/-- Whether a text is over, apart from a line break, or a query begins. -/
def endsPath : Text → Bool
  | [] => true
  | ['\n'] => true
  | '?' :: _ => true
  | _ => false

/-- Read the ending of an asset file before the end of the path. -/
def recognizeAssetEnding : Recognizer Unit := fun text ↦
  assetEndings.findSome? fun ending ↦ do
    let rest ← Text.after? ending text
    if endsPath rest then some ((), rest) else none

/-- Whether a link leads to a page of the site. -/
def isPageLink (path : Text) : Bool :=
  Text.startsWith path ['/'] && !Text.startsWith path "//".toList &&
    !Placeholder.occursIn path && !recognizeAssetEnding.occursIn path &&
    !assetBeginnings.any fun beginning ↦ Text.startsWith path beginning

end LocalizedSite.Extract
