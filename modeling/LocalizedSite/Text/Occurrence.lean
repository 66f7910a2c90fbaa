import LocalizedSite.Text.Basic

/-!
# Occurrences of a pattern

A recogniser reads one occurrence of a pattern at the beginning of a text. `first?` finds the
leftmost place where it succeeds, and `cuts` cuts a text at all its occurrences from left to right,
none overlapping the one before. `Cuts.text` puts a cut text together again, with any text written
for each occurrence, so a rewriting pass is a choice of what to write.
-/

namespace LocalizedSite

/-- A recogniser reads one occurrence at the beginning of a text and returns the rest. -/
abbrev Recognizer (α : Type) := Text → Option (α × Text)

namespace Recognizer

variable {α : Type}

/-- Look for the leftmost occurrence, keeping the characters already passed in reverse. -/
def firstFrom (recognize : Recognizer α) (passed : Text) : Text → Option (Text × α × Text)
  | [] => none
  | character :: rest =>
    match recognize (character :: rest) with
    | some (found, following) => some (passed.reverse, found, following)
    | none => firstFrom recognize (character :: passed) rest

/-- The leftmost occurrence, between the text before it and the text after it. -/
def first? (recognize : Recognizer α) (text : Text) : Option (Text × α × Text) :=
  firstFrom recognize [] text

/-- Whether the pattern occurs in a text. -/
def occursIn (recognize : Recognizer α) (text : Text) : Bool :=
  (first? recognize text).isSome

/-- Whether the pattern covers the whole text. -/
def whole? (recognize : Recognizer α) (text : Text) : Option α :=
  match recognize text with
  | some (found, []) => some found
  | _ => none

end Recognizer

/-- A text cut at occurrences: each with the text before it, and what follows the last. -/
structure Cuts (α : Type) where
  /-- The occurrences, each after the text between it and the one before. -/
  found : List (Text × α)
  /-- The text after the last occurrence. -/
  tail : Text

namespace Cuts

variable {α σ : Type}

/-- Cut a text at no more than `limit` occurrences. -/
def upTo (recognize : Recognizer α) : Nat → Text → Cuts α
  | 0, text => ⟨[], text⟩
  | limit + 1, text =>
    match recognize.first? text with
    | none => ⟨[], text⟩
    | some (before, occurrence, following) =>
      let others := upTo recognize limit following
      ⟨(before, occurrence) :: others.found, others.tail⟩

/-- Cut a text at every occurrence. An occurrence has at least one character, so there are no more
of them than characters. -/
def all (recognize : Recognizer α) (text : Text) : Cuts α :=
  upTo recognize text.length text

/-- The occurrences without the text between them. -/
def occurrences (cuts : Cuts α) : List α :=
  cuts.found.map Prod.snd

/-- The whole text with `write` in place of each occurrence. -/
def text (write : α → Text) (cuts : Cuts α) : Text :=
  cuts.found.flatMap (fun (before, occurrence) ↦ before ++ write occurrence) ++ cuts.tail

/-- Go through the occurrences in order with a state; `step` gives the text to write for each. -/
def rewriteFound (step : σ → α → Text × σ) : σ → List (Text × α) → List Text × σ
  | state, [] => ([], state)
  | state, (before, occurrence) :: others =>
    let (written, next) := step state occurrence
    let (texts, final) := rewriteFound step next others
    (before :: written :: texts, final)

/-- Rewrite every occurrence in order with a state, and give the whole text and the final state. -/
def rewrite (step : σ → α → Text × σ) (state : σ) (cuts : Cuts α) : Text × σ :=
  let (texts, final) := rewriteFound step state cuts.found
  (texts.flatten ++ cuts.tail, final)

end Cuts

end LocalizedSite
