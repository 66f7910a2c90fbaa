import LocalizedSite.Entries
import LocalizedSite.Text.DecimalDigit
import LocalizedSite.Text.LetterCase

/-!
# Keys of extracted texts

A page's texts get keys by category: the first text of a category has the category itself as its
key, the `n`-th has the category followed by `_n`. Labels of tables get keys made from their own
letters, so equal labels share a key.
-/

namespace LocalizedSite.Extract

/-- The number of keys given out in each category. -/
abbrev KeyCounts := Entries Nat

namespace KeyCounts

/-- The key of the `number`-th text of a category. -/
def numbered (category : Text) (number : Nat) : Text :=
  if number = 1 then category else category ++ '_' :: Text.ofNat number

/-- The next key of a category. -/
def next (counts : KeyCounts) (category : Text) : Text × KeyCounts :=
  let number := (Entries.get? counts category).getD 0 + 1
  (numbered category number, Entries.put counts category number)

end KeyCounts

/-- The category of elements that carry a class. -/
def classCategory (element cssClass : Text) : Text :=
  element ++ '_' :: cssClass.map fun character ↦ if character = '-' then '_' else character

/-- Whether a character may stand in a slug. -/
def isSlugCharacter (character : Char) : Bool :=
  ('a' ≤ character && character ≤ 'z') || Text.isLatinDigit character

/-- A text with each run of characters that no slug has replaced by one underscore. -/
def underscoreRuns : Bool → Text → Text
  | _, [] => []
  | inRun, character :: rest =>
    if isSlugCharacter character then character :: underscoreRuns false rest
    else if inRun then underscoreRuns true rest
    else '_' :: underscoreRuns true rest

/-- The key of a table header. -/
def headerKey (label : Text) : Text :=
  "th_".toList ++ Text.trimWhere (· == '_') (underscoreRuns false (Text.lower label))

/-- The key of a table cell's label. -/
def labelKey (label : Text) : Text :=
  "dl_".toList ++ (Text.lower label).map fun character ↦
    if isSlugCharacter character then character else '_'

end LocalizedSite.Extract
