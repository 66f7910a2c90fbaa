import LocalizedSite.Text.Occurrence
import LocalizedSite.Proofs.Text.Search

/-!
# The occurrences that are found

`first_eq_some` and `first_eq_none` say which occurrence `first?` finds. For a recogniser that
consumes at least one character, `Cuts.all` satisfies the equations of a scan from left to right:
`all_of_first_none` and `all_of_first_some` at the next occurrence, and `text_all_cons` and
`text_all_of_some` at the next character. `all_induction` is the induction over all occurrences.
-/

namespace LocalizedSite

namespace Recognizer

variable {α : Type} {recognize : Recognizer α}

/-- Every occurrence has at least one character. -/
def Consuming (recognize : Recognizer α) : Prop :=
  ∀ text found rest, recognize text = some (found, rest) → rest.length < text.length

/-- The passed characters stand in front of what is found later. -/
theorem first_from_eq_map (passed text : Text) :
    firstFrom recognize passed text =
      (first? recognize text).map fun (before, found, rest) ↦
        (passed.reverse ++ before, found, rest) := by
  induction text generalizing passed with
  | nil => rfl
  | cons character text ih =>
      simp only [first?, firstFrom]
      cases hhere : recognize (character :: text) with
      | some result => simp
      | none =>
          simp only
          rw [ih (character :: passed), ih [character]]
          cases first? recognize text with
          | none => rfl
          | some result => simp

/-- Where the pattern begins at the first character, it is found there. -/
theorem first_of_eq_some {character : Char} {text rest : Text} {found : α}
    (h : recognize (character :: text) = some (found, rest)) :
    first? recognize (character :: text) = some ([], found, rest) := by
  simp [first?, firstFrom, h]

/-- Where it does not, the search goes on behind the first character. -/
theorem first_of_eq_none {character : Char} {text : Text}
    (h : recognize (character :: text) = none) :
    first? recognize (character :: text) =
      (first? recognize text).map fun (before, found, rest) ↦
        (character :: before, found, rest) := by
  simp only [first?, firstFrom, h]
  rw [first_from_eq_map]
  rfl

/-- What is found stands behind the skipped text, and nothing occurs earlier. -/
theorem first_eq_some {text before rest : Text} {found : α}
    (h : first? recognize text = some (before, found, rest)) :
    ∃ occurrence, text = before ++ occurrence ∧ recognize occurrence = some (found, rest) ∧
      ∀ front back, text = front ++ back → front.length < before.length →
        recognize back = none := by
  induction text generalizing before with
  | nil => exact absurd h (by simp [first?, firstFrom])
  | cons character text ih =>
      cases hhere : recognize (character :: text) with
      | some result =>
          rw [first_of_eq_some hhere] at h
          obtain ⟨rfl, rfl, rfl⟩ := by simpa using h
          exact ⟨character :: text, rfl, hhere, by simp⟩
      | none =>
          rw [first_of_eq_none hhere, Option.map_eq_some_iff] at h
          obtain ⟨⟨skipped, result, following⟩, hfirst, heq⟩ := h
          obtain ⟨rfl, rfl, rfl⟩ := by simpa using heq
          obtain ⟨occurrence, rfl, hfound, hearlier⟩ := ih hfirst
          refine ⟨occurrence, rfl, hfound, ?_⟩
          intro front back hsplit hlength
          cases front with
          | nil => rwa [show back = character :: (skipped ++ occurrence) from hsplit.symm]
          | cons first front =>
              exact hearlier front back (List.cons.inj hsplit).2 (by simpa using hlength)

/-- Nothing is found exactly when the pattern occurs at no character. -/
theorem first_eq_none {text : Text} :
    first? recognize text = none ↔
      ∀ front character back, text = front ++ character :: back →
        recognize (character :: back) = none := by
  induction text with
  | nil => simp [first?, firstFrom]
  | cons character text ih =>
      cases hhere : recognize (character :: text) with
      | some result =>
          rw [first_of_eq_some hhere]
          simp only [reduceCtorEq, false_iff, not_forall]
          exact ⟨[], character, text, rfl, by simp [hhere]⟩
      | none =>
          rw [first_of_eq_none hhere, Option.map_eq_none_iff, ih]
          constructor
          · intro h front other back hsplit
            cases front with
            | nil =>
                obtain ⟨rfl, rfl⟩ := List.cons.inj hsplit
                exact hhere
            | cons first front => exact h front other back (List.cons.inj hsplit).2
          · intro h front other back hsplit
            exact h (character :: front) other back (by simp [hsplit])

/-- Where nothing is found, the pattern does not occur at the beginning of any later part. -/
theorem eq_none_of_first_eq_none {front back : Text} (h : first? recognize (front ++ back) = none)
    (hne : back ≠ []) : recognize back = none := by
  obtain ⟨character, rest, rfl⟩ := List.exists_cons_of_ne_nil hne
  exact first_eq_none.mp h front character rest rfl

/-- What follows an occurrence that consumes is shorter than the text. -/
theorem Consuming.first_length_lt (hconsuming : Consuming recognize) {text before rest : Text}
    {found : α} (h : first? recognize text = some (before, found, rest)) :
    rest.length < text.length := by
  obtain ⟨occurrence, rfl, hfound, -⟩ := first_eq_some h
  have hlength := hconsuming _ _ _ hfound
  simp only [List.length_append]
  omega

end Recognizer

namespace Cuts

open Recognizer

variable {α σ : Type} {recognize : Recognizer α}

/-- A text without occurrence is not cut, whatever the limit. -/
theorem up_to_of_first_none {text : Text} (h : first? recognize text = none) (limit : Nat) :
    upTo recognize limit text = ⟨[], text⟩ := by
  cases limit with
  | zero => rfl
  | succ limit => simp [upTo, h]

/-- A limit of at least the length of the text is no limit. -/
theorem up_to_eq_all (hconsuming : Consuming recognize) {limit : Nat} {text : Text}
    (hlimit : text.length ≤ limit) : upTo recognize limit text = all recognize text := by
  induction hlength : text.length using Nat.strong_induction_on generalizing text limit with
  | _ length ih =>
      unfold all
      cases hfirst : first? recognize text with
      | none => rw [up_to_of_first_none hfirst, up_to_of_first_none hfirst]
      | some result =>
          obtain ⟨before, found, rest⟩ := result
          have hshorter := hconsuming.first_length_lt hfirst
          obtain ⟨limit, rfl⟩ : ∃ smaller, limit = smaller + 1 := ⟨limit - 1, by omega⟩
          obtain ⟨smaller, hsmaller⟩ : ∃ smaller, text.length = smaller + 1 :=
            ⟨text.length - 1, by omega⟩
          simp only [hsmaller, upTo, hfirst]
          rw [@ih rest.length (by omega) limit rest (by omega) rfl,
            @ih rest.length (by omega) smaller rest (by omega) rfl]

/-- A text without occurrence is not cut. -/
theorem all_of_first_none {text : Text} (h : first? recognize text = none) :
    all recognize text = ⟨[], text⟩ :=
  up_to_of_first_none h text.length

/-- A text is cut at its first occurrence and then behind it. -/
theorem all_of_first_some (hconsuming : Consuming recognize) {text before rest : Text} {found : α}
    (h : first? recognize text = some (before, found, rest)) :
    all recognize text =
      ⟨(before, found) :: (all recognize rest).found, (all recognize rest).tail⟩ := by
  have hshorter := hconsuming.first_length_lt h
  obtain ⟨length, hlength⟩ : ∃ length, text.length = length + 1 := ⟨text.length - 1, by omega⟩
  rw [all, hlength, upTo, h]
  simp only [up_to_eq_all hconsuming (show rest.length ≤ length by omega)]

/-- Induction over the occurrences of a text, from left to right. -/
theorem all_induction (hconsuming : Consuming recognize) {motive : Text → Cuts α → Prop}
    (none : ∀ text, first? recognize text = none → motive text ⟨[], text⟩)
    (some : ∀ text before found rest, first? recognize text = some (before, found, rest) →
      motive rest (all recognize rest) →
      motive text ⟨(before, found) :: (all recognize rest).found, (all recognize rest).tail⟩)
    (text : Text) : motive text (all recognize text) := by
  induction hlength : text.length using Nat.strong_induction_on generalizing text with
  | _ length ih =>
      cases hfirst : first? recognize text with
      | none =>
          rw [all_of_first_none hfirst]
          exact none text hfirst
      | some result =>
          obtain ⟨before, found, rest⟩ := result
          have hshorter := hconsuming.first_length_lt hfirst
          rw [all_of_first_some hconsuming hfirst]
          exact some text before found rest hfirst (ih rest.length (by omega) rest rfl)

@[simp]
theorem all_nil : all recognize [] = ⟨[], []⟩ :=
  all_of_first_none rfl

/-- A character at which nothing occurs stays. -/
theorem text_all_cons (hconsuming : Consuming recognize) (write : α → Text) {character : Char}
    {text : Text} (h : recognize (character :: text) = none) :
    (all recognize (character :: text)).text write =
      character :: (all recognize text).text write := by
  have hfirst := first_of_eq_none h
  cases hrest : first? recognize text with
  | none => simp [all_of_first_none, hfirst, hrest, Cuts.text]
  | some result =>
      obtain ⟨before, found, rest⟩ := result
      rw [hrest] at hfirst
      simp [all_of_first_some hconsuming hfirst, all_of_first_some hconsuming hrest, Cuts.text]

/-- An occurrence is written as `write` says. -/
theorem text_all_of_some (hconsuming : Consuming recognize) (write : α → Text)
    {text rest : Text} {found : α} (h : recognize text = some (found, rest)) :
    (all recognize text).text write = write found ++ (all recognize rest).text write := by
  cases text with
  | nil => exact absurd (hconsuming _ _ _ h) (by simp)
  | cons character text =>
      simp [all_of_first_some hconsuming (first_of_eq_some h), Cuts.text]

/-- A character at which nothing occurs adds no occurrence. -/
theorem occurrences_all_cons (hconsuming : Consuming recognize) {character : Char} {text : Text}
    (h : recognize (character :: text) = none) :
    (all recognize (character :: text)).occurrences = (all recognize text).occurrences := by
  have hfirst := first_of_eq_none h
  cases hrest : first? recognize text with
  | none => simp [all_of_first_none, hfirst, hrest, occurrences]
  | some result =>
      obtain ⟨before, found, rest⟩ := result
      rw [hrest] at hfirst
      simp [all_of_first_some hconsuming hfirst, all_of_first_some hconsuming hrest, occurrences]

/-- An occurrence comes before those behind it. -/
theorem occurrences_all_of_some (hconsuming : Consuming recognize) {text rest : Text} {found : α}
    (h : recognize text = some (found, rest)) :
    (all recognize text).occurrences = found :: (all recognize rest).occurrences := by
  cases text with
  | nil => exact absurd (hconsuming _ _ _ h) (by simp)
  | cons character text =>
      simp [all_of_first_some hconsuming (first_of_eq_some h), occurrences]

@[simp]
theorem rewrite_nil (step : σ → α → Text × σ) (state : σ) (tail : Text) :
    rewrite step state ⟨[], tail⟩ = (tail, state) := rfl

/-- The first occurrence is rewritten first, and the others with the state after it. -/
theorem rewrite_cons (step : σ → α → Text × σ) (state : σ) (before : Text) (found : α)
    (others : List (Text × α)) (tail : Text) :
    rewrite step state ⟨(before, found) :: others, tail⟩ =
      (before ++ (step state found).1 ++ (rewrite step (step state found).2 ⟨others, tail⟩).1,
        (rewrite step (step state found).2 ⟨others, tail⟩).2) := by
  simp [rewrite, rewriteFound]

/-- Every occurrence was read somewhere. -/
theorem read_of_mem_all (hconsuming : Consuming recognize) {text : Text} {found : α}
    (h : found ∈ (all recognize text).occurrences) :
    ∃ occurrence rest, recognize occurrence = some (found, rest) := by
  revert h
  refine all_induction hconsuming
    (motive := fun _ cuts ↦ found ∈ cuts.occurrences →
      ∃ occurrence rest, recognize occurrence = some (found, rest))
    (fun text _ hmem ↦ absurd hmem (by simp [occurrences])) ?_ text
  intro text before other rest hfirst ih hmem
  obtain ⟨occurrence, -, hread, -⟩ := Recognizer.first_eq_some hfirst
  rcases List.mem_cons.mp hmem with rfl | hmem
  · exact ⟨occurrence, rest, hread⟩
  · exact ih hmem

/-- What every step keeps is kept. -/
theorem rewrite_keeps (invariant : σ → Prop) {step : σ → α → Text × σ} (cuts : Cuts α)
    (hstep : ∀ state, ∀ found ∈ cuts.occurrences, invariant state → invariant (step state found).2)
    {state : σ} (h : invariant state) : invariant (cuts.rewrite step state).2 := by
  obtain ⟨found, tail⟩ := cuts
  induction found generalizing state with
  | nil => exact h
  | cons piece others ih =>
      rw [rewrite_cons]
      have hnext := hstep state piece.2 (List.mem_cons_self ..) h
      exact ih hnext fun state other hmem ↦ hstep state other (List.mem_cons_of_mem _ hmem)

end Cuts

section Map

variable {α β : Type} {recognize : Recognizer α}

/-- The occurrences of a recogniser, each changed into another. -/
def Recognizer.mapFound (change : α → β) (recognize : Recognizer α) : Recognizer β := fun text ↦
  (recognize text).map fun (found, rest) ↦ (change found, rest)

/-- Changed occurrences are found at the same places. -/
theorem Recognizer.first_map_found (change : α → β) (text : Text) :
    first? (mapFound change recognize) text =
      (first? recognize text).map fun (before, found, rest) ↦ (before, change found, rest) := by
  induction text with
  | nil => rfl
  | cons character text ih =>
      cases hread : recognize (character :: text) with
      | some result =>
          have hmapped : mapFound change recognize (character :: text) =
              some (change result.1, result.2) := by
            rw [mapFound, hread, Option.map_some]
          rw [first_of_eq_some hread, first_of_eq_some hmapped]
          rfl
      | none =>
          have hmapped : mapFound change recognize (character :: text) = none := by
            rw [mapFound, hread, Option.map_none]
          rw [first_of_eq_none hread, first_of_eq_none hmapped, ih]
          cases first? recognize text <;> rfl

namespace Cuts

/-- A cut text with each occurrence changed into another. -/
def map (change : α → β) (cuts : Cuts α) : Cuts β :=
  ⟨cuts.found.map fun (before, found) ↦ (before, change found), cuts.tail⟩

@[simp]
theorem occurrences_map (change : α → β) (cuts : Cuts α) :
    (cuts.map change).occurrences = cuts.occurrences.map change := by
  simp [map, occurrences]

@[simp]
theorem text_map (change : α → β) (cuts : Cuts α) (write : β → Text) :
    (cuts.map change).text write = cuts.text fun found ↦ write (change found) := by
  simp [map, text, List.flatMap_map]

/-- Changed occurrences cut a text at the same places. -/
theorem all_map_found (change : α → β) (text : Text) :
    all (recognize.mapFound change) text = (all recognize text).map change := by
  have hlimit (limit : Nat) (text : Text) :
      upTo (recognize.mapFound change) limit text = (upTo recognize limit text).map change := by
    induction limit generalizing text with
    | zero => rfl
    | succ limit ih =>
        rw [upTo, upTo, Recognizer.first_map_found]
        cases recognize.first? text with
        | none => rfl
        | some result => simp [ih, map]
  exact hlimit text.length text

end Cuts

end Map

end LocalizedSite
