/-!
# Text

A text is a list of characters. This module holds the operations every other part of the library
uses on it: looking for a literal piece, replacing it, cutting at a separator, and joining.
`cut?` is the one search; containment, replacement and counting of lines are stated through it or
through the list itself. Characters are classified by ranges, and texts are put into their order.
-/

namespace LocalizedSite

/-- A text is a finite sequence of Unicode characters. -/
abbrev Text := List Char

namespace Text

/-- The decimal digits of a number, most significant first. -/
def ofNat (number : Nat) : Text :=
  Nat.toDigits 10 number

/-- The decimal digits of an integer, after a minus sign when it is negative. -/
def ofInt (number : Int) : Text :=
  if number < 0 then '-' :: ofNat number.natAbs else ofNat number.natAbs

/-- Whether a text begins with `beginning`. -/
def startsWith (text beginning : Text) : Bool :=
  beginning.isPrefixOf text

/-- Whether a text ends with `ending`. -/
def endsWith (text ending : Text) : Bool :=
  ending.isSuffixOf text

/-- The rest of a text after a literal beginning, or nothing when it begins differently. -/
def after? : (beginning text : Text) → Option Text
  | [], text => some text
  | _ :: _, [] => none
  | wanted :: beginning, found :: text =>
    if wanted = found then after? beginning text else none

/-- Search for `needle`, keeping the characters already passed in reverse. -/
def cutFrom (needle passed : Text) : Text → Option (Text × Text)
  | [] => if needle = [] then some (passed.reverse, []) else none
  | character :: rest =>
    match after? needle (character :: rest) with
    | some following => some (passed.reverse, following)
    | none => cutFrom needle (character :: passed) rest

/-- What stands before and after the first occurrence of `needle`. -/
def cut? (needle text : Text) : Option (Text × Text) :=
  cutFrom needle [] text

/-- Whether `needle` occurs in a text. -/
def contains (text needle : Text) : Bool :=
  (cut? needle text).isSome

/-- Replace occurrences of a nonempty needle from left to right, at most `limit` of them. -/
def replaceUpTo (needle replacement : Text) : Nat → Text → List Text
  | 0, text => [text]
  | limit + 1, text =>
    match cut? needle text with
    | none => [text]
    | some (before, following) =>
      before :: replacement :: replaceUpTo needle replacement limit following

/-- Replace every occurrence of `needle`; the empty needle occurs around every character. -/
def replaceAll (needle replacement text : Text) : Text :=
  if needle = [] then
    replacement ++ text.flatMap fun character ↦ character :: replacement
  else
    (replaceUpTo needle replacement text.length text).flatten

/-- Replace the first occurrence of a nonempty needle, if there is one. -/
def replaceFirst (needle replacement text : Text) : Text :=
  (replaceUpTo needle replacement 1 text).flatten

/-- Cut a text at a separator character, keeping the finished parts and the open one in reverse. -/
def splitFrom (separator : Char) (parts : List Text) (current : Text) : Text → List Text
  | [] => (current.reverse :: parts).reverse
  | character :: rest =>
    if character = separator then splitFrom separator (current.reverse :: parts) [] rest
    else splitFrom separator parts (character :: current) rest

/-- The parts between occurrences of a separator character; there is always at least one. -/
def splitAt (separator : Char) (text : Text) : List Text :=
  splitFrom separator [] [] text

/-- The parts of a list of texts, with a separator between each two of them. -/
def joinWith (separator : Text) (parts : List Text) : Text :=
  (parts.intersperse separator).flatten

/-- Remove the characters of a class from the beginning of a text. -/
def trimStartWhere (drop : Char → Bool) (text : Text) : Text :=
  text.dropWhile drop

/-- Remove the characters of a class from the end of a text. -/
def trimEndWhere (drop : Char → Bool) (text : Text) : Text :=
  (text.reverse.dropWhile drop).reverse

/-- Remove the characters of a class from both ends of a text. -/
def trimWhere (drop : Char → Bool) (text : Text) : Text :=
  trimEndWhere drop (trimStartWhere drop text)

/-- The lowercase hexadecimal digits of a number, padded with zeros to a width. -/
def hex (width number : Nat) : Text :=
  let digits := Nat.toDigits 16 number
  List.replicate (width - digits.length) '0' ++ digits

/-!
## Ranges of characters

A character class of the Unicode standard is given by ranges of code points, both ends included.
-/

/-- Whether a character's code point lies in one of the ranges. -/
def inRanges (ranges : List (Nat × Nat)) (character : Char) : Bool :=
  ranges.any fun range ↦ range.1 ≤ character.toNat && character.toNat ≤ range.2

/-!
## The order of texts

Texts are ordered like words in a lexicon, by the code points of their characters.
-/

/-- Whether a text comes before another one or is equal to it. -/
def precedes : Text → Text → Bool
  | [], _ => true
  | _ :: _, [] => false
  | first :: rest, first' :: rest' =>
    if first = first' then precedes rest rest' else first.toNat < first'.toNat

/-- Put a value into a sorted list, behind the values that come before it or are equal to it. -/
def insertSorted {α : Type} (key : α → Text) (value : α) : List α → List α
  | [] => [value]
  | other :: others =>
    if precedes (key other) (key value) then other :: insertSorted key value others
    else value :: other :: others

/-- A list sorted by a key. -/
def sortBy {α : Type} (key : α → Text) (values : List α) : List α :=
  values.foldl (fun sorted value ↦ insertSorted key value sorted) []

end Text

end LocalizedSite
