import LocalizedSite.Proofs.Placeholder
import LocalizedSite.Proofs.Text.Weave

/-!
# Placeholders at the seam of two texts

The occurrences in a text that is put together from two are those of both, unless one of them begins in
the first text and ends in the second (`Cuts.all_append`). No placeholder has a character such as an angle
bracket, and each ends in a brace, so none goes across such a character or up to one without a brace before
it (`not_straddles_of_last`, `not_straddles_of_lead`).
-/

namespace LocalizedSite

section Seam

variable {α : Type} {recognize : Recognizer α} {write : α → Text} {fits : α → Prop}

/-- A recogniser reads exactly what is written for the occurrences that fit. -/
structure Recognizer.ReadsWritten (recognize : Recognizer α) (write : α → Text) (fits : α → Prop) :
    Prop where
  consuming : Consuming recognize
  eq_some : ∀ {text rest : Text} {occurrence : α},
    recognize text = some (occurrence, rest) ↔ fits occurrence ∧ text = write occurrence ++ rest

namespace Cuts

/-- An occurrence begins in the first of two texts and ends in the second. -/
def Straddles (write : α → Text) (fits : α → Prop) (front back : Text) : Prop :=
  ∃ passed beginning ending rest occurrence, front = passed ++ beginning ∧ beginning ≠ [] ∧
    back = ending ++ rest ∧ ending ≠ [] ∧ fits occurrence ∧ write occurrence = beginning ++ ending

/-- Where the first of two texts ends in a foreign character, no occurrence goes on. -/
theorem not_straddles_of_last {character : Char}
    (h : ∀ occurrence, fits occurrence → character ∉ write occurrence) (front back : Text) :
    ¬ Straddles write fits (front ++ [character]) back := by
  rintro ⟨passed, beginning, ending, rest, occurrence, hfront, hbeginning, -, -, hfits, htext⟩
  refine h occurrence hfits ?_
  rw [htext]
  refine List.mem_append_left _ ?_
  have hlast : beginning.getLast hbeginning = character := by
    have heq : (front ++ [character]).getLast? = (passed ++ beginning).getLast? := by rw [hfront]
    rw [List.getLast?_append_of_ne_nil _ hbeginning, List.getLast?_eq_some_getLast hbeginning] at heq
    simpa using heq.symm
  rw [← hlast]
  exact List.getLast_mem hbeginning

/-- Where the second of two texts begins with a foreign character, no occurrence goes on. -/
theorem not_straddles_of_head {character : Char}
    (h : ∀ occurrence, fits occurrence → character ∉ write occurrence) (front back : Text) :
    ¬ Straddles write fits front (character :: back) := by
  rintro ⟨passed, beginning, ending, rest, occurrence, -, -, hback, hending, hfits, htext⟩
  refine h occurrence hfits ?_
  rw [htext]
  obtain ⟨first, others, rfl⟩ := List.exists_cons_of_ne_nil hending
  rw [← (List.cons.inj hback).1]
  exact List.mem_append_right _ (List.mem_cons_self ..)

/-- Where every occurrence ends in a character that does not come in the second text before a foreign one,
no occurrence goes on. -/
theorem not_straddles_of_lead {last character : Char} {lead : Text}
    (hlast : ∀ occurrence, fits occurrence → (write occurrence).getLast? = some last)
    (hlead : last ∉ lead) (h : ∀ occurrence, fits occurrence → character ∉ write occurrence)
    (front back : Text) : ¬ Straddles write fits front (lead ++ character :: back) := by
  rintro ⟨passed, beginning, ending, rest, occurrence, -, -, hback, hending, hfits, htext⟩
  have hends : last ∈ ending := by
    have hwritten := hlast occurrence hfits
    rw [htext, List.getLast?_append_of_ne_nil _ hending] at hwritten
    exact List.mem_of_getLast? hwritten
  -- the end of the occurrence is behind the foreign character
  rcases List.append_eq_append_iff.mp hback with ⟨others, hothers, hrest⟩ | ⟨others, hinside, -⟩
  · cases others with
    | nil => exact hlead (by simpa [hothers] using hends)
    | cons first others =>
        obtain ⟨rfl, -⟩ := List.cons.inj hrest
        refine h occurrence hfits ?_
        rw [htext, hothers]
        simp
  · exact hlead (by simp [hinside, hends])

/-- No occurrence begins in a text without its first character. -/
theorem not_straddles_of_not_mem {first : Char}
    (hfirst : ∀ occurrence, fits occurrence → (write occurrence).head? = some first) {front : Text}
    (h : first ∉ front) (back : Text) : ¬ Straddles write fits front back := by
  rintro ⟨passed, beginning, ending, rest, occurrence, rfl, hbeginning, -, -, hfits, htext⟩
  have hwritten := hfirst occurrence hfits
  rw [htext, List.head?_append_of_ne_nil _ hbeginning] at hwritten
  exact h (List.mem_append_right _ (List.mem_of_mem_head? hwritten))

/-- The occurrences in two texts one after the other, if none straddles the seam. -/
theorem all_append (hreads : recognize.ReadsWritten write fits) {front back : Text}
    (h : ¬ Straddles write fits front back) :
    Cuts.all recognize (front ++ back) =
      (Cuts.all recognize front).append (Cuts.all recognize back) := by
  have hconsuming := hreads.consuming
  induction hlength : front.length using Nat.strong_induction_on generalizing front with
  | _ length ih =>
      have hlater {passed rest : Text} (hsplit : front = passed ++ rest) :
          ¬ Straddles write fits rest back := by
        rintro ⟨skipped, beginning, ending, last, occurrence, rfl, hothers⟩
        exact h ⟨passed ++ skipped, beginning, ending, last, occurrence, by simp [hsplit], hothers⟩
      cases front with
      | nil => exact (plain_nil_append _).symm
      | cons character front =>
          cases hread : recognize (character :: front) with
          | some result =>
              obtain ⟨occurrence, rest⟩ := result
              obtain ⟨hfits, htext⟩ := hreads.eq_some.mp hread
              have hwhole : recognize (character :: front ++ back) =
                  some (occurrence, rest ++ back) :=
                hreads.eq_some.mpr ⟨hfits, by rw [htext, List.append_assoc]⟩
              have hshorter := hconsuming _ _ _ hread
              rw [all_of_some hconsuming hwhole, all_of_some hconsuming hread, append_assoc,
                ih rest.length (by omega) (hlater htext) rfl]
          | none =>
              have hwhole : recognize (character :: front ++ back) = none := by
                cases hwhole : recognize (character :: front ++ back) with
                | none => rfl
                | some result =>
                    obtain ⟨occurrence, rest⟩ := result
                    obtain ⟨hfits, htext⟩ := hreads.eq_some.mp hwhole
                    have hnone (behind : Text) : character :: front ≠ write occurrence ++ behind := by
                      intro hfront
                      rw [hreads.eq_some.mpr ⟨hfits, hfront⟩] at hread
                      exact absurd hread (by simp)
                    rcases List.append_eq_append_iff.mp htext with
                      ⟨ending, hwritten, hback⟩ | ⟨behind, hfront, -⟩
                    · cases ending with
                      | nil => exact absurd (by simp [hwritten]) (hnone [])
                      | cons first ending =>
                          exact absurd ⟨[], character :: front, first :: ending, rest, occurrence, rfl,
                            by simp, hback, by simp, hfits, hwritten⟩ h
                    · exact absurd hfront (hnone behind)
              rw [all_cons hconsuming hread]
              rw [List.cons_append] at hwhole ⊢
              rw [all_cons hconsuming hwhole, append_assoc,
                ih front.length (by simp at hlength; omega) (hlater (List.singleton_append ..).symm) rfl]

/-- With the occurrences as they are written, a cut text is the text. -/
theorem text_all_written (hreads : recognize.ReadsWritten write fits) (text : Text) :
    (Cuts.all recognize text).text write = text := by
  refine all_induction hreads.consuming (motive := fun text cuts ↦ cuts.text write = text)
    (fun text _ ↦ rfl) ?_ text
  intro text before occurrence rest hfirst ih
  obtain ⟨found, rfl, hread, -⟩ := Recognizer.first_eq_some hfirst
  rw [(hreads.eq_some.mp hread).2]
  conv => rhs; rw [← ih]
  simp [Cuts.text]

/-- A text without opening braces has no occurrences that begin with them. -/
theorem all_of_literal (hnone : ∀ text, ¬ openBraces <+: text → recognize text = none)
    {text : Text} (h : Placeholder.occursIn text = false) : Cuts.all recognize text = plain text := by
  refine all_of_first_none (Recognizer.first_eq_none.mpr fun front character back hsplit ↦ ?_)
  refine hnone _ fun hbraces ↦ Placeholder.occurs_in_eq_false.mp h ?_
  rw [hsplit]
  exact hbraces.isInfix.trans (List.suffix_append ..).isInfix

end Cuts

end Seam

namespace Reference

open Cuts

theorem reads_written : recognize.ReadsWritten Reference.text IsWellFormed :=
  ⟨consuming_recognize, recognize_eq_some⟩

/-- Whether no reference has a character. -/
def isForeign (character : Char) : Bool :=
  !isKeyCharacter character && character != '\x7b' && character != '\x7d'

/-- A reference has braces and characters of keys only. -/
theorem mem_text {reference : Reference} (h : reference.IsWellFormed) {character : Char}
    (hmem : character ∈ reference.text) :
    isKeyCharacter character = true ∨ character = '\x7b' ∨ character = '\x7d' := by
  obtain ⟨-, hscope, -, hkey⟩ := h
  rw [← List.append_nil reference.text, text_eq] at hmem
  rcases List.mem_append.mp hmem with hmark | hmem
  · have hall : mark.all (fun found ↦ !isForeign found) = true := by decide
    simpa [isForeign, or_assoc] using List.all_eq_true.mp hall character hmark
  rcases List.mem_append.mp hmem with hmem | hmem
  · exact .inl (by simp [isKeyCharacter, hscope character hmem])
  rcases List.mem_cons.mp hmem with rfl | hmem
  · exact .inl (by decide)
  rcases List.mem_append.mp hmem with hmem | hmem
  · exact .inl (hkey character hmem)
  · exact .inr (.inr (by simpa [closeBraces] using hmem))

/-- A reference has no foreign character. -/
theorem not_mem_text {reference : Reference} (h : reference.IsWellFormed) {character : Char}
    (hforeign : isForeign character = true) : character ∉ reference.text := by
  intro hmem
  rcases mem_text h hmem with hkey | rfl | rfl
  · simp [isForeign, hkey] at hforeign
  · exact absurd hforeign (by decide)
  · exact absurd hforeign (by decide)

/-- A reference begins in the first of two texts and ends in the second. -/
abbrev Straddles (front back : Text) : Prop :=
  Cuts.Straddles Reference.text IsWellFormed front back

/-- Where the first of two texts ends in a foreign character, no reference goes on. -/
theorem not_straddles_of_last {character : Char} (h : isForeign character = true)
    (front back : Text) : ¬ Straddles (front ++ [character]) back :=
  Cuts.not_straddles_of_last (fun _ hwell ↦ not_mem_text hwell h) front back

/-- Where the second of two texts begins with a foreign character, no reference goes on. -/
theorem not_straddles_of_head {character : Char} (h : isForeign character = true)
    (front back : Text) : ¬ Straddles front (character :: back) :=
  Cuts.not_straddles_of_head (fun _ hwell ↦ not_mem_text hwell h) front back

/-- No reference begins in a text without an opening brace. -/
theorem not_straddles_of_not_mem {front : Text} (h : '\x7b' ∉ front) (back : Text) :
    ¬ Straddles front back :=
  Cuts.not_straddles_of_not_mem (fun _ _ ↦ rfl) h back

/-- No reference begins in a text without opening braces that does not end in a brace. -/
theorem not_straddles_of_literal {front : Text} (h : Placeholder.occursIn front = false)
    (hlast : front.getLast? ≠ some '\x7b') (back : Text) : ¬ Straddles front back := by
  rintro ⟨passed, beginning, ending, rest, reference, rfl, hbeginning, -, -, -, htext⟩
  rw [List.getLast?_append_of_ne_nil _ hbeginning] at hlast
  have hbraces : openBraces <+: beginning ++ ending := by
    rw [← htext, ← List.append_nil reference.text]
    exact begins_with_braces reference []
  match beginning, hbeginning with
  | [first], _ =>
      obtain ⟨others, hothers⟩ := hbraces
      exact hlast (by rw [← (List.cons.inj hothers).1]; rfl)
  | first :: second :: others, _ =>
      have hfront : openBraces <+: first :: second :: others := by
        simpa [openBraces, List.cons_prefix_cons] using hbraces
      exact Placeholder.occurs_in_eq_false.mp h
        (hfront.isInfix.trans (List.suffix_append ..).isInfix)

/-- A text without an opening brace has no reference. -/
theorem all_of_not_mem {text : Text} (h : '\x7b' ∉ text) : Cuts.all recognize text = plain text :=
  all_of_literal (fun _ ↦ recognize_eq_none) (Placeholder.occurs_in_of_not_mem h)

/-- The references of two texts one after the other, if none straddles the seam. -/
theorem all_append {front back : Text} (h : ¬ Straddles front back) :
    Cuts.all recognize (front ++ back) =
      (Cuts.all recognize front).append (Cuts.all recognize back) :=
  Cuts.all_append reads_written h

end Reference

end LocalizedSite
