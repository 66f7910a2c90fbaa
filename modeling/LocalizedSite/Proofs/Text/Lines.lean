import LocalizedSite.Text.Basic
import Mathlib.Data.List.Basic

/-!
# Cutting at a separator and joining again

`join_split_at` says that joining undoes cutting, and `not_mem_of_mem_split_at` that no part has the
separator.
-/

namespace LocalizedSite.Text

/-- Two or more parts are joined by putting the separator behind the first one. -/
theorem join_with_cons_cons (separator first second : Text) (others : List Text) :
    joinWith separator (first :: second :: others) =
      first ++ separator ++ joinWith separator (second :: others) := by
  simp [joinWith]

/-- What stands in a joined text stands in the separator or in a part. -/
theorem mem_join_with {separator : Text} {parts : List Text} {character : Char}
    (h : character ∈ joinWith separator parts) :
    character ∈ separator ∨ ∃ part ∈ parts, character ∈ part := by
  induction parts with
  | nil => exact absurd h (by simp [joinWith])
  | cons first parts ih =>
      cases parts with
      | nil => exact .inr ⟨first, by simp, by simpa [joinWith] using h⟩
      | cons second others =>
          rw [join_with_cons_cons] at h
          rcases List.mem_append.mp h with hmem | hmem
          · rcases List.mem_append.mp hmem with hmem | hmem
            · exact .inr ⟨first, List.mem_cons_self .., hmem⟩
            · exact .inl hmem
          · rcases ih hmem with hmem | ⟨part, hpart, hmem⟩
            · exact .inl hmem
            · exact .inr ⟨part, List.mem_cons_of_mem _ hpart, hmem⟩

/-- The other parts are joined behind the first one, if there are any. -/
theorem join_with_cons_of_ne_nil {parts : List Text} (h : parts ≠ []) (separator first : Text) :
    joinWith separator (first :: parts) = first ++ separator ++ joinWith separator parts := by
  obtain ⟨second, others, rfl⟩ := List.exists_cons_of_ne_nil h
  exact join_with_cons_cons separator first second others

@[simp]
theorem join_with_nil (separator : Text) : joinWith separator [] = [] := rfl

@[simp]
theorem join_with_singleton (separator part : Text) : joinWith separator [part] = part := by
  simp [joinWith]

/-- Joined texts begin with the first one. -/
theorem prefix_join_with (separator first : Text) (parts : List Text) :
    first <+: joinWith separator (first :: parts) := by
  cases parts with
  | nil => simp
  | cons second others => simp [join_with_cons_cons]

/-- Joined texts end in the last one. -/
theorem suffix_join_with (separator last : Text) (parts : List Text) :
    last <:+ joinWith separator (parts ++ [last]) := by
  induction parts with
  | nil => simp
  | cons part parts ih =>
      rw [List.cons_append, join_with_cons_of_ne_nil (by simp)]
      exact ih.trans (List.suffix_append ..)

/-- The parts found earlier stand in front of the others. -/
theorem split_from_eq_append (separator : Char) (parts : List Text) (current text : Text) :
    splitFrom separator parts current text =
      parts.reverse ++ splitFrom separator [] current text := by
  induction text generalizing parts current with
  | nil => simp [splitFrom]
  | cons character text ih =>
      simp only [splitFrom]
      split
      · rw [ih (current.reverse :: parts), ih [current.reverse]]
        simp
      · exact ih parts (character :: current)

/-- The open part is completed by the characters before the next separator. -/
theorem split_from_cons (separator : Char) (current text : Text) :
    ∃ first others, splitFrom separator [] [] text = first :: others ∧
      splitFrom separator [] current text = (current.reverse ++ first) :: others := by
  induction text generalizing current with
  | nil => exact ⟨[], [], by simp [splitFrom], by simp [splitFrom]⟩
  | cons character text ih =>
      by_cases hseparator : character = separator
      · refine ⟨[], splitFrom separator [] [] text, ?_, ?_⟩
        · simp [splitFrom, hseparator, split_from_eq_append separator [[]]]
        · simp [splitFrom, hseparator, split_from_eq_append separator [current.reverse]]
      · obtain ⟨first, others, hfirst, hsingle⟩ := ih [character]
        obtain ⟨first', others', hfirst', hcurrent⟩ := ih (character :: current)
        obtain ⟨rfl, rfl⟩ := List.cons.inj (hfirst.symm.trans hfirst')
        exact ⟨character :: first, others, by simpa [splitFrom, hseparator] using hsingle,
          by simpa [splitFrom, hseparator] using hcurrent⟩

/-- A separator ends the part before it. -/
theorem split_at_cons_separator (separator : Char) (text : Text) :
    splitAt separator (separator :: text) = [] :: splitAt separator text := by
  simp [splitAt, splitFrom, split_from_eq_append separator [[]]]

/-- Any other character belongs to the first part. -/
theorem split_at_cons_of_ne {separator character : Char} (hne : character ≠ separator)
    (text : Text) :
    ∃ first others, splitAt separator text = first :: others ∧
      splitAt separator (character :: text) = (character :: first) :: others := by
  obtain ⟨first, others, hfirst, hcurrent⟩ := split_from_cons separator [character] text
  exact ⟨first, others, hfirst, by simpa [splitAt, splitFrom, hne] using hcurrent⟩

/-- A text without separators is one part. -/
theorem split_at_of_not_mem {separator : Char} {text : Text} (h : separator ∉ text) :
    splitAt separator text = [text] := by
  induction text with
  | nil => rfl
  | cons character text ih =>
      have hne : character ≠ separator := fun heq ↦ h (by rw [heq]; exact List.mem_cons_self ..)
      obtain ⟨first, others, hfirst, hcons⟩ := split_at_cons_of_ne hne text
      rw [ih fun hmem ↦ h (List.mem_cons_of_mem _ hmem)] at hfirst
      obtain ⟨rfl, rfl⟩ := List.cons.inj hfirst
      exact hcons

/-- The parts behind a separator follow those before it. -/
theorem split_at_append_separator (separator : Char) (front rest : Text) :
    splitAt separator (front ++ separator :: rest) =
      splitAt separator front ++ splitAt separator rest := by
  induction front with
  | nil => exact split_at_cons_separator separator rest
  | cons character front ih =>
      by_cases h : character = separator
      · rw [List.cons_append, h, split_at_cons_separator, split_at_cons_separator, ih, List.cons_append]
      · obtain ⟨first, others, hfront, hcons⟩ := split_at_cons_of_ne h front
        obtain ⟨first', others', hall, hcons'⟩ := split_at_cons_of_ne h (front ++ separator :: rest)
        rw [List.cons_append, hcons', hcons, List.cons_append]
        rw [ih, hfront, List.cons_append] at hall
        obtain ⟨rfl, rfl⟩ := List.cons.inj hall
        rfl

/-- Joining undoes cutting. -/
theorem join_split_at (separator : Char) (text : Text) :
    joinWith [separator] (splitAt separator text) = text := by
  induction text with
  | nil => simp [splitAt, splitFrom]
  | cons character text ih =>
      by_cases hseparator : character = separator
      · obtain ⟨first, others, hfirst, -⟩ := split_from_cons separator [] text
        have hsplit : splitAt separator text = first :: others := hfirst
        rw [hseparator, split_at_cons_separator, hsplit, join_with_cons_cons, ← hsplit, ih]
        rfl
      · obtain ⟨first, others, hfirst, hcons⟩ := split_at_cons_of_ne hseparator text
        rw [hcons]
        rw [hfirst] at ih
        cases others with
        | nil => simpa using ih
        | cons second others => simpa [join_with_cons_cons] using ih

/-- A part has no separator. -/
theorem not_mem_of_mem_split_at {separator : Char} {text part : Text}
    (h : part ∈ splitAt separator text) : separator ∉ part := by
  induction text generalizing part with
  | nil =>
      have hpart : part = [] := by simpa [splitAt, splitFrom] using h
      simp [hpart]
  | cons character text ih =>
      by_cases hseparator : character = separator
      · rw [hseparator, split_at_cons_separator] at h
        rcases List.mem_cons.mp h with rfl | hmem
        · simp
        · exact ih hmem
      · obtain ⟨first, others, hfirst, hcons⟩ := split_at_cons_of_ne hseparator text
        rw [hcons] at h
        rcases List.mem_cons.mp h with rfl | hmem
        · have hnot : separator ∉ first := ih (by simp [hfirst])
          simp [hnot, Ne.symm hseparator]
        · exact ih (by simp [hfirst, hmem])

end LocalizedSite.Text
