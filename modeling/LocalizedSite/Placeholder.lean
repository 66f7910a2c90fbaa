import LocalizedSite.Text.Blank
import LocalizedSite.Text.DecimalDigit
import LocalizedSite.Text.Occurrence

/-!
# Placeholders

A template holds two kinds of placeholders, both between double braces. A reference names a
dictionary entry by scope and key and is written with a `t.` in front; a structural placeholder
names a value that follows from the locale and the page. Keys use only characters that may stand
inside a quoted attribute and inside a JSON string, so a placeholder can be put anywhere in a page.
`Placeholder.parse` reads one placeholder back, and the recognisers find them inside a text.
-/

namespace LocalizedSite

/-- The double brace before a placeholder. -/
def openBraces : Text := ['\x7b', '\x7b']

/-- The double brace after a placeholder. -/
def closeBraces : Text := ['\x7d', '\x7d']

/-- A text between double braces. -/
def braced (text : Text) : Text :=
  openBraces ++ text ++ closeBraces

/-- A value that follows from the locale and the page. -/
inductive Structural where
  | canonicalUrl
  | hreflangTags
  | htmlLang
  | langSwitcher
  | localePath
  | ogLocale
  | ogLocaleAlternates
  | pageUrl
deriving DecidableEq, Repr

namespace Structural

/-- Every structural value, by name. -/
def all : List Structural :=
  [.canonicalUrl, .hreflangTags, .htmlLang, .langSwitcher, .localePath, .ogLocale,
   .ogLocaleAlternates, .pageUrl]

/-- The name of a structural value. -/
def name : Structural → Text
  | .canonicalUrl => "canonicalUrl".toList
  | .hreflangTags => "hreflangTags".toList
  | .htmlLang => "htmlLang".toList
  | .langSwitcher => "langSwitcher".toList
  | .localePath => "localePath".toList
  | .ogLocale => "ogLocale".toList
  | .ogLocaleAlternates => "ogLocaleAlternates".toList
  | .pageUrl => "pageUrl".toList

/-- The structural value of a given name. -/
def ofName? (name : Text) : Option Structural :=
  all.find? fun value ↦ value.name = name

/-- The placeholder of a structural value. -/
def text (value : Structural) : Text :=
  braced value.name

/-- Read a structural placeholder at the beginning of a text. -/
def recognize : Recognizer Structural := fun text ↦
  all.findSome? fun value ↦ (Text.after? value.text text).map (value, ·)

/-- The message for a name that no structural value has. -/
def unknownMessage (name : Text) : Text :=
  "Unknown structural placeholder '".toList ++ name ++ "'.".toList

end Structural

/-- A reference to a dictionary entry. -/
structure Reference where
  /-- The scope: a page key or the shared scope. -/
  scope : Text
  /-- The key inside the scope. -/
  key : Text
deriving DecidableEq, Repr

namespace Reference

/-- What stands between the opening braces and the scope. -/
def mark : Text := openBraces ++ "t.".toList

/-- The placeholder of a reference. -/
def text (reference : Reference) : Text :=
  mark ++ reference.scope ++ '.' :: reference.key ++ closeBraces

/-- Whether a character may stand in a scope. -/
def isScopeCharacter (character : Char) : Bool :=
  Text.isLatinLetter character || Text.isLatinDigit character || character == '_'

/-- Whether a character may stand in a key. -/
def isKeyCharacter (character : Char) : Bool :=
  isScopeCharacter character || "&+'\"(). -".toList.contains character

/-- Read a reference at the beginning of a text: a nonempty scope, a point and a nonempty key. -/
def recognize : Recognizer Reference := fun text ↦ do
  let following ← Text.after? mark text
  let (scope, rest) := following.span isScopeCharacter
  let afterPoint ← Text.after? ['.'] rest
  let (key, rest) := afterPoint.span isKeyCharacter
  let rest ← Text.after? closeBraces rest
  if scope.isEmpty || key.isEmpty then none else some (⟨scope, key⟩, rest)

/-- Read anything that looks like a reference at the beginning of a text, well formed or not. -/
def recognizeLoose : Recognizer Text := fun text ↦ do
  let following ← Text.after? mark text
  let (inside, rest) := following.span (· != '\x7d')
  let rest ← Text.after? closeBraces rest
  if inside.isEmpty then none else some (mark ++ inside ++ closeBraces, rest)

/-- The references of a text, in order. -/
def all (text : Text) : List Reference :=
  (Cuts.all recognize text).occurrences

end Reference

/-- A placeholder of either kind. -/
inductive Placeholder where
  | reference (reference : Reference)
  | structural (value : Structural)
deriving DecidableEq, Repr

namespace Placeholder

/-- The text of a placeholder. -/
def text : Placeholder → Text
  | .reference found => found.text
  | .structural value => value.text

/-- Read a text that is exactly one placeholder. -/
def parse (token : Text) : Option Placeholder :=
  match Recognizer.whole? Reference.recognize token with
  | some found => some (.reference found)
  | none => (Recognizer.whole? Structural.recognize token).map .structural

/-- Whether a text begins with a placeholder, apart from white space. -/
def isAtStart (text : Text) : Bool :=
  Text.startsWith (Text.trimStart text) openBraces

/-- Whether a text has the opening braces of a placeholder. -/
def occursIn (text : Text) : Bool :=
  Text.contains text openBraces

/-- The structural placeholders of a text, in order. -/
def structurals (text : Text) : List Structural :=
  (Cuts.all Structural.recognize text).occurrences

/-- Everything left in a text that looks like a reference, in order. -/
def unresolved (text : Text) : List Text :=
  (Cuts.all Reference.recognizeLoose text).occurrences

end Placeholder

end LocalizedSite
