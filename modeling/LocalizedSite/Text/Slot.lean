import LocalizedSite.Text.Occurrence

/-!
# Slots

A slot is an occurrence in three pieces: an opening, the content that a pass may replace, and a
closing. Most patterns of the library have this form, and the recognisers here build them from
literals and character classes. Each of them keeps every character it reads, so `Slot.text` gives
back what was read.
-/

namespace LocalizedSite

/-- An occurrence whose middle piece may be replaced. -/
structure Slot where
  /-- What stands before the content. -/
  opening : Text
  /-- The replaceable piece. -/
  content : Text
  /-- What stands after the content. -/
  closing : Text
deriving DecidableEq, Repr

namespace Slot

/-- The characters of a slot with other content. -/
def withContent (slot : Slot) (content : Text) : Text :=
  slot.opening ++ content ++ slot.closing

/-- The characters of a slot. -/
def text (slot : Slot) : Text :=
  slot.withContent slot.content

/-- A literal opening, the shortest content, and a literal closing. -/
def between (opening closing : Text) : Recognizer Slot := fun text ↦ do
  let following ← Text.after? opening text
  let (content, rest) ← Text.cut? closing following
  return (⟨opening, content, closing⟩, rest)

/-- A literal opening, the longest run of a character class, and a literal closing. -/
def run (opening : Text) (allowed : Char → Bool) (closing : Text) : Recognizer Slot :=
  fun text ↦ do
    let following ← Text.after? opening text
    let (content, rest) := following.span allowed
    let rest ← Text.after? closing rest
    return (⟨opening, content, closing⟩, rest)

/-- The slots of a recogniser that have some content. -/
def nonempty (recognize : Recognizer Slot) : Recognizer Slot := fun text ↦
  (recognize text).filter fun (slot, _) ↦ !slot.content.isEmpty

/-- A slot in a text whose opening is preceded by more text that belongs to it. -/
def extendOpening (before : Text) (slot : Slot) : Slot :=
  { slot with opening := before ++ slot.opening }

end Slot

end LocalizedSite
