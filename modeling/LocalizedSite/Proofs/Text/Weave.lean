import LocalizedSite.Proofs.Text.Occurrence
import Mathlib.Data.List.Forall2

/-!
# Pieces and places of a cut text

## Pieces of a cut text

Two cut texts are joined by `Cuts.append`, and `Cuts.weave` writes a list of texts in place of the
occurrences. A text is cut as its first character or first occurrence joined to the cut rest
(`all_cons`, `all_of_some`), and what may be written in place of the occurrences is put together from
what may be written in the pieces (`fills_append_iff`).
-/

namespace LocalizedSite.Cuts

attribute [ext] Cuts

open Recognizer

variable {α : Type} {recognize : Recognizer α}

/-- Two cut texts one after the other. -/
def append (first second : Cuts α) : Cuts α :=
  match second.found with
  | [] => ⟨first.found, first.tail ++ second.tail⟩
  | (before, occurrence) :: others =>
    ⟨first.found ++ (first.tail ++ before, occurrence) :: others, second.tail⟩

/-- A text without occurrences. -/
def plain (text : Text) : Cuts α :=
  ⟨[], text⟩

/-- One occurrence and nothing else. -/
def single (occurrence : α) : Cuts α :=
  ⟨[([], occurrence)], []⟩

/-- The text before, between and after the occurrences, with the given texts in place of them. -/
def weave (cuts : Cuts α) (values : List Text) : Text :=
  (List.zipWith (fun piece value ↦ piece.1 ++ value) cuts.found values).flatten ++ cuts.tail

/-- A text that has the pieces between the occurrences in order, and for each occurrence a text that
is written for it. -/
def Fills (written : α → Text → Prop) (cuts : Cuts α) (text : Text) : Prop :=
  ∃ values, List.Forall₂ written cuts.occurrences values ∧ text = cuts.weave values

@[simp]
theorem occurrences_append (first second : Cuts α) :
    (first.append second).occurrences = first.occurrences ++ second.occurrences := by
  obtain ⟨found, tail⟩ := second
  cases found with
  | nil => simp [append, occurrences]
  | cons piece found => simp [append, occurrences]

@[simp]
theorem text_append (first second : Cuts α) (write : α → Text) :
    (first.append second).text write = first.text write ++ second.text write := by
  obtain ⟨found, tail⟩ := second
  cases found with
  | nil => simp [append, text]
  | cons piece found => simp [append, text]

@[simp]
theorem occurrences_plain (text : Text) : (plain text : Cuts α).occurrences = [] := rfl

@[simp]
theorem occurrences_single (occurrence : α) : (single occurrence).occurrences = [occurrence] := rfl

@[simp]
theorem text_plain (text : Text) (write : α → Text) : (plain text).text write = text := rfl

@[simp]
theorem text_single (occurrence : α) (write : α → Text) :
    (single occurrence).text write = write occurrence := by
  simp [single, Cuts.text]

@[simp]
theorem plain_nil_append (cuts : Cuts α) : (plain []).append cuts = cuts := by
  obtain ⟨found, tail⟩ := cuts
  cases found with
  | nil => rfl
  | cons piece found => rfl

@[simp]
theorem plain_append_plain (front back : Text) :
    (plain front : Cuts α).append (plain back) = plain (front ++ back) := rfl

theorem append_assoc (first second third : Cuts α) :
    (first.append second).append third = first.append (second.append third) := by
  obtain ⟨foundSecond, tailSecond⟩ := second
  obtain ⟨foundThird, tailThird⟩ := third
  cases foundThird with
  | nil =>
      cases foundSecond with
      | nil => simp [append]
      | cons piece found => simp [append]
  | cons other others =>
      cases foundSecond with
      | nil => simp [append]
      | cons piece found => simp [append]

/-- Each of two texts takes as many values as it has occurrences. -/
theorem weave_append {first second : Cuts α} {values others : List Text}
    (hfirst : first.occurrences.length = values.length)
    (hsecond : second.occurrences.length = others.length) :
    (first.append second).weave (values ++ others) = first.weave values ++ second.weave others := by
  obtain ⟨found, tail⟩ := second
  have hfound : first.found.length = values.length := by
    rw [← hfirst, occurrences, List.length_map]
  cases found with
  | nil =>
      obtain rfl := List.length_eq_zero_iff.mp hsecond.symm
      simp [append, weave]
  | cons piece found =>
      cases others with
      | nil => exact absurd hsecond (by simp [occurrences])
      | cons value others => simp [append, weave, List.zipWith_append hfound]

/-- What is written for two texts one after the other. -/
theorem fills_append_iff {written : α → Text → Prop} {first second : Cuts α} {text : Text} :
    (first.append second).Fills written text ↔
      ∃ front back, first.Fills written front ∧ second.Fills written back ∧ text = front ++ back := by
  constructor
  · rintro ⟨values, hvalues, rfl⟩
    rw [occurrences_append] at hvalues
    have hfirst := (List.forall₂_take_append _ _ _ hvalues.flip).flip
    have hsecond := (List.forall₂_drop_append _ _ _ hvalues.flip).flip
    refine ⟨_, _, ⟨_, hfirst, rfl⟩, ⟨_, hsecond, rfl⟩, ?_⟩
    rw [← weave_append hfirst.length_eq hsecond.length_eq, List.take_append_drop]
  · rintro ⟨_, _, ⟨values, hvalues, rfl⟩, ⟨others, hothers, rfl⟩, rfl⟩
    refine ⟨values ++ others, ?_, ?_⟩
    · rw [occurrences_append]
      exact List.rel_append hvalues hothers
    · rw [weave_append hvalues.length_eq hothers.length_eq]

/-- A text without occurrences stays. -/
theorem fills_plain_iff {written : α → Text → Prop} {text other : Text} :
    (plain text).Fills written other ↔ other = text := by
  constructor
  · rintro ⟨values, hvalues, rfl⟩
    cases hvalues
    rfl
  · rintro rfl
    exact ⟨[], .nil, rfl⟩

/-- What is written for one occurrence. -/
theorem fills_single_iff {written : α → Text → Prop} {occurrence : α} {text : Text} :
    (single occurrence).Fills written text ↔ written occurrence text := by
  constructor
  · rintro ⟨values, hvalues, rfl⟩
    obtain ⟨value, others, hvalue, hothers, rfl⟩ := List.forall₂_cons_left_iff.mp hvalues
    cases hothers
    simpa [weave, single] using hvalue
  · intro h
    exact ⟨[text], .cons h .nil, by simp [weave, single]⟩

/-- Writing the same for every occurrence of a kind. -/
theorem Fills.text {written : α → Text → Prop} {cuts : Cuts α} {write : α → Text}
    (h : ∀ occurrence ∈ cuts.occurrences, written occurrence (write occurrence)) :
    cuts.Fills written (cuts.text write) := by
  refine ⟨cuts.occurrences.map write, ?_, ?_⟩
  · rw [List.forall₂_map_right_iff, List.forall₂_same]
    exact h
  · simp [weave, Cuts.text, occurrences, List.flatMap, Function.comp_def, List.zipWith_map_right,
      List.zipWith_self]

/-- A character at which nothing occurs stands before the cut rest. -/
theorem all_cons (hconsuming : Consuming recognize) {character : Char} {text : Text}
    (h : recognize (character :: text) = none) :
    all recognize (character :: text) = (plain [character]).append (all recognize text) := by
  have hfirst := first_of_eq_none h
  cases hrest : first? recognize text with
  | none => simp [all_of_first_none, hfirst, hrest, append, plain]
  | some result =>
      obtain ⟨before, found, rest⟩ := result
      rw [hrest] at hfirst
      simp [all_of_first_some hconsuming hfirst, all_of_first_some hconsuming hrest, append, plain]

/-- An occurrence stands before the cut rest. -/
theorem all_of_some (hconsuming : Consuming recognize) {text rest : Text} {found : α}
    (h : recognize text = some (found, rest)) :
    all recognize text = (single found).append (all recognize rest) := by
  cases text with
  | nil => exact absurd (hconsuming _ _ _ h) (by simp)
  | cons character text =>
      rw [all_of_first_some hconsuming (first_of_eq_some h)]
      generalize all recognize rest = cuts
      obtain ⟨others, tail⟩ := cuts
      cases others with
      | nil => simp [append, single]
      | cons piece others => simp [append, single]

end LocalizedSite.Cuts

/-!
## Places of occurrences

`Cuts.placed` gives every occurrence of a cut text with the place where it stands in the whole text, and
`textAt` writes something for each occurrence that may depend on its place. In two texts one after the
other the places of the second one are counted on (`placed_append`, `text_at_append`).
-/

namespace LocalizedSite

/-- An occurrence with the places where it begins and ends in a text. -/
structure Placed (α : Type) where
  /-- The number of characters before the occurrence. -/
  start : Nat
  /-- The number of characters before what follows the occurrence. -/
  finish : Nat
  /-- The occurrence. -/
  occurrence : α

/-- The place of the same occurrence when more characters stand in front of the text. -/
def Placed.behind {α : Type} (passed : Nat) (place : Placed α) : Placed α :=
  ⟨passed + place.start, passed + place.finish, place.occurrence⟩

namespace Cuts

variable {α : Type} (write : α → Text)

/-- The occurrences of some pieces with their places behind a number of characters. -/
def placedFrom : Nat → List (Text × α) → List (Placed α)
  | _, [] => []
  | passed, (before, occurrence) :: others =>
    let start := passed + before.length
    let finish := start + (write occurrence).length
    ⟨start, finish, occurrence⟩ :: placedFrom finish others

/-- The occurrences of a cut text with their places in the text that has `write` in place of each. -/
def placed (cuts : Cuts α) : List (Placed α) :=
  placedFrom write 0 cuts.found

/-- The text with something written for each occurrence that may depend on its place. -/
def textAt (writeAt : Placed α → Text) (cuts : Cuts α) : Text :=
  cuts.weave ((cuts.placed write).map writeAt)

/-- The places are counted on behind more characters. -/
theorem placed_from_add (count passed : Nat) (found : List (Text × α)) :
    placedFrom write (count + passed) found =
      (placedFrom write passed found).map (Placed.behind count) := by
  induction found generalizing passed with
  | nil => rfl
  | cons piece found ih =>
      obtain ⟨before, occurrence⟩ := piece
      simp only [placedFrom, List.map_cons]
      rw [Nat.add_assoc, Nat.add_assoc, ih]
      rfl

/-- The places in two lists of pieces one after the other. -/
theorem placed_from_append (passed : Nat) (found others : List (Text × α)) :
    placedFrom write passed (found ++ others) = placedFrom write passed found ++
      placedFrom write (passed + (text write ⟨found, []⟩).length) others := by
  induction found generalizing passed with
  | nil => rfl
  | cons piece found ih =>
      obtain ⟨before, occurrence⟩ := piece
      simp only [List.cons_append, placedFrom, ih]
      simp [Cuts.text, Nat.add_assoc]

/-- Text in front of the first occurrence counts for its place only. -/
theorem placed_from_cons_append (passed : Nat) (front before : Text) (occurrence : α)
    (others : List (Text × α)) :
    placedFrom write passed ((front ++ before, occurrence) :: others) =
      placedFrom write (passed + front.length) ((before, occurrence) :: others) := by
  simp [placedFrom, Nat.add_assoc]

/-- The places in two texts one after the other. -/
theorem placed_append (first second : Cuts α) :
    (first.append second).placed write = first.placed write ++
      (second.placed write).map (Placed.behind (first.text write).length) := by
  obtain ⟨found, tail⟩ := first
  obtain ⟨others, last⟩ := second
  have hlength : (text write ⟨found, tail⟩).length =
      0 + (text write ⟨found, []⟩).length + tail.length := by
    simp [Cuts.text]
  unfold placed
  rw [← placed_from_add, Nat.add_zero, hlength]
  cases others with
  | nil => simp [append, placedFrom]
  | cons piece others =>
      -- the tail of the first text and the piece before the next occurrence become one piece
      show placedFrom write 0 (found ++ (tail ++ piece.1, piece.2) :: others) = _
      rw [placed_from_append, placed_from_cons_append]

@[simp]
theorem placed_plain (text : Text) : (plain text : Cuts α).placed write = [] := rfl

/-- The places come in the order of the occurrences. -/
@[simp]
theorem map_occurrence_placed (cuts : Cuts α) :
    (cuts.placed write).map Placed.occurrence = cuts.occurrences := by
  have hfound (passed : Nat) (found : List (Text × α)) :
      (placedFrom write passed found).map Placed.occurrence = found.map Prod.snd := by
    induction found generalizing passed with
    | nil => rfl
    | cons piece found ih => simp [placedFrom, ih]
  exact hfound 0 cuts.found

/-- An occurrence stands between its places, behind what was passed before. -/
theorem exists_split_of_mem_placed_from {place : Placed α} {found : List (Text × α)} {passed : Text}
    (tail : Text) (h : place ∈ placedFrom write passed.length found) :
    ∃ front back, passed ++ text write ⟨found, tail⟩ = front ++ write place.occurrence ++ back ∧
      place.start = front.length ∧ place.finish = (front ++ write place.occurrence).length := by
  induction found generalizing passed with
  | nil => exact absurd h (by simp [placedFrom])
  | cons piece found ih =>
      obtain ⟨before, occurrence⟩ := piece
      have htext : passed ++ text write ⟨(before, occurrence) :: found, tail⟩ =
          passed ++ before ++ write occurrence ++ text write ⟨found, tail⟩ := by
        simp [Cuts.text]
      rw [htext]
      rcases List.mem_cons.mp h with rfl | hmem
      · exact ⟨passed ++ before, text write ⟨found, tail⟩, rfl, by simp, by simp [Nat.add_assoc]⟩
      · exact ih (by simpa [Nat.add_assoc] using hmem)

/-- An occurrence stands between its places. -/
theorem exists_split_of_mem_placed {cuts : Cuts α} {place : Placed α}
    (h : place ∈ cuts.placed write) :
    ∃ front back, cuts.text write = front ++ write place.occurrence ++ back ∧
      place.start = front.length ∧ place.finish = (front ++ write place.occurrence).length := by
  have hfrom : place ∈ placedFrom write ([] : Text).length cuts.found := h
  exact exists_split_of_mem_placed_from write cuts.tail hfrom

variable {write}

/-- What is written at the places of two texts one after the other. -/
theorem text_at_append (writeAt : Placed α → Text) (first second : Cuts α) :
    (first.append second).textAt write writeAt = first.textAt write writeAt ++
      second.textAt write fun place ↦ writeAt (place.behind (first.text write).length) := by
  have hlength (cuts : Cuts α) (writeAt : Placed α → Text) :
      cuts.occurrences.length = ((cuts.placed write).map writeAt).length := by
    rw [List.length_map, ← map_occurrence_placed write cuts, List.length_map]
  rw [textAt, placed_append, List.map_append, List.map_map,
    weave_append (hlength first _) (hlength second _)]
  rfl

@[simp]
theorem text_at_plain (writeAt : Placed α → Text) (text : Text) :
    (plain text).textAt write writeAt = text := rfl

/-- What is written depends on the places of the occurrences only. -/
theorem text_at_congr {cuts : Cuts α} {writeAt other : Placed α → Text}
    (h : ∀ place ∈ cuts.placed write, writeAt place = other place) :
    cuts.textAt write writeAt = cuts.textAt write other := by
  rw [textAt, List.map_congr_left h, textAt]

/-- Where the places make no difference, each occurrence is written by itself. -/
theorem text_at_eq {cuts : Cuts α} {writeAt : Placed α → Text} {other : α → Text}
    (h : ∀ place ∈ cuts.placed write, writeAt place = other place.occurrence) :
    cuts.textAt write writeAt = cuts.text other := by
  have hvalues : (cuts.placed write).map writeAt = cuts.occurrences.map other := by
    rw [← map_occurrence_placed write cuts, List.map_map]
    exact List.map_congr_left h
  simp [textAt, hvalues, weave, Cuts.text, occurrences, List.flatMap, Function.comp_def,
    List.zipWith_map_right, List.zipWith_self]

end Cuts

end LocalizedSite
