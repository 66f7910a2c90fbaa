import LocalizedSite.Text.Basic

/-!
# Blank characters

Whitespace in the wide sense of the Unicode standard together with the four information
separators: the class that trimming, splitting into words, and every "optional space" of a pattern
use. A zero-width space and a byte order mark are not in it.
-/

namespace LocalizedSite.Text

/-- The code points of white space. -/
def blankRanges : List (Nat × Nat) :=
  [(9, 13), (28, 32), (133, 133), (160, 160), (5760, 5760), (8192, 8202), (8232, 8233),
   (8239, 8239), (8287, 8287), (12288, 12288)]

/-- Whether a character counts as white space. -/
def isBlank (character : Char) : Bool :=
  inRanges blankRanges character

/-- A text without the white space at its beginning. -/
def trimStart (text : Text) : Text :=
  trimStartWhere isBlank text

/-- A text without the white space at its end. -/
def trimEnd (text : Text) : Text :=
  trimEndWhere isBlank text

/-- A text without the white space at both ends. -/
def trim (text : Text) : Text :=
  trimWhere isBlank text

/-- Collect maximal runs of nonblank characters, keeping the words found and the open one in
reverse. -/
def wordsFrom (words : List Text) (current : Text) : Text → List Text
  | [] => (if current = [] then words else current.reverse :: words).reverse
  | character :: rest =>
    if isBlank character then
      wordsFrom (if current = [] then words else current.reverse :: words) [] rest
    else wordsFrom words (character :: current) rest

/-- The maximal runs of nonblank characters, in order. -/
def words (text : Text) : List Text :=
  wordsFrom [] [] text

end LocalizedSite.Text
