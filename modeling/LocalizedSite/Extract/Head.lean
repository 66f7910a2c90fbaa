import LocalizedSite.Extract.Harvest
import LocalizedSite.Text.WordCharacter

/-!
# The head of a page

The texts of the title and of the metadata become page texts, each under a key of its own. The
language, the canonical link, the page address and the Open Graph locale become structural
placeholders; the canonical link and the Open Graph locale are followed by the links and properties
of the other locales.
-/

namespace LocalizedSite.Extract

/-- The line break and indentation before a line that is added to the head. -/
def headBreak : Text := "\n    ".toList

/-- Take a literal text under a fixed key of the page. -/
def pageText (key : Text) : Choice := fun harvest content ↦
  if isLiteral content then some (harvest.addPage key content) else none

/-- Take a literal text without the blanks around it under a fixed key of the page. -/
def trimmedPageText (key : Text) : Choice := fun harvest content ↦
  if isLiteral content then some (harvest.addPage key (Text.trim content)) else none

/-- Read the title element. -/
def recognizeTitle : Recognizer Slot :=
  Slot.between "<title>".toList "</title>".toList

/-- Read the rest of an attribute value after its opening quote. -/
def recognizeValue (opening : Text) : Recognizer Slot :=
  Slot.run opening (· != '"') ['"']

/-- The metadata that holds texts: what stands before the text, and its key. -/
def metaTexts : List (Text × Text) :=
  [("<meta name=\"title\" content=\"".toList, "meta_name_title".toList),
   ("<meta name=\"description\" content=\"".toList, "meta_description".toList),
   ("<meta name=\"keywords\" content=\"".toList, "meta_keywords".toList),
   ("<meta property=\"og:title\" content=\"".toList, "og_title".toList),
   ("<meta property=\"og:description\" content=\"".toList, "og_description".toList),
   ("<meta name=\"twitter:title\" content=\"".toList, "twitter_title".toList),
   ("<meta name=\"twitter:description\" content=\"".toList, "twitter_description".toList)]

/-- Take the texts of the title and of the metadata. -/
def headTexts : Pass :=
  inOrder (rewriteFirst recognizeTitle (trimmedPageText "meta_title".toList) ::
    metaTexts.map fun (opening, key) ↦ rewriteFirst (recognizeValue opening) (pageText key))

/-- The slots whose content does not begin with a placeholder. -/
def unfilled (recognize : Recognizer Slot) : Recognizer Slot := fun text ↦
  (recognize text).filter fun (slot, _) ↦ !Text.startsWith slot.content openBraces

/-- Look for a `lang` attribute before the end of a tag; `previous` is the character before the text
and `passed` holds the characters already read in reverse. -/
def languageFrom (previous : Char) (passed : Text) : Text → Option (Slot × Text)
  | [] => none
  | character :: rest =>
    let here :=
      if Text.isWordCharacter previous then none
      else unfilled (recognizeValue "lang=\"".toList) (character :: rest)
    match here with
    | some (slot, following) => some (slot.extendOpening passed.reverse, following)
    | none =>
      if character = '>' then none else languageFrom character (character :: passed) rest

/-- Read an `html` tag up to its first `lang` attribute without a placeholder. -/
def recognizeLanguage : Recognizer Slot := fun text ↦ do
  let opening := "<html".toList
  let rest ← Text.after? opening text
  if (rest.head?.any Text.isWordCharacter) then none
  else
    let (slot, following) ← languageFrom 'l' [] rest
    return (slot.extendOpening opening, following)

/-- Put the placeholder of the language. -/
def fillLanguage (html : Text) : Text :=
  match recognizeLanguage.first? html with
  | none => html
  | some (before, slot, following) =>
    before ++ slot.withContent (Structural.text .htmlLang) ++ following

/-- Read a canonical link without a placeholder. -/
def recognizeCanonical : Recognizer Slot :=
  unfilled (Slot.run "<link rel=\"canonical\" href=\"".toList (· != '"') "\">".toList)

/-- Read a property without a placeholder; blanks and a slash may stand before the end of its
tag. -/
def recognizeProperty (opening : Text) : Recognizer Slot := fun text ↦ do
  let (slot, rest) ← unfilled (recognizeValue opening) text
  let (blanks, rest) := rest.span Text.isBlank
  let (slash, rest) := rest.span (· == '/')
  let rest ← Text.after? ['>'] rest
  if 1 < slash.length then none
  else some ({ slot with closing := slot.closing ++ blanks ++ slash ++ ['>'] }, rest)

/-- Put a placeholder into the first slot, end its tag there, and add a text behind it. -/
def fillFirst (recognize : Recognizer Slot) (value : Structural) (added html : Text) : Text :=
  match recognize.first? html with
  | none => html
  | some (before, slot, following) =>
    before ++ slot.opening ++ value.text ++ "\">".toList ++ added ++ following

/-- A structural placeholder on a line of its own in the head. -/
def headLine (value : Structural) : Text :=
  headBreak ++ value.text

/-- Put the structural placeholders of the head. -/
def fillHead (html : Text) : Text :=
  let html := fillLanguage html
  let html := fillFirst recognizeCanonical .canonicalUrl (headLine .hreflangTags) html
  let html := fillFirst (recognizeProperty "<meta property=\"og:url\" content=\"".toList)
    .pageUrl [] html
  let html := fillFirst (recognizeProperty "<meta name=\"twitter:url\" content=\"".toList)
    .pageUrl [] html
  fillFirst (recognizeProperty "<meta property=\"og:locale\" content=\"".toList)
    .ogLocale (headLine .ogLocaleAlternates) html

end LocalizedSite.Extract
