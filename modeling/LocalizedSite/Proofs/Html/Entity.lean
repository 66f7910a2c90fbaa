import LocalizedSite.Html.Entity
import LocalizedSite.Proofs.Text.Blanks
import LocalizedSite.Proofs.Text.Occurrence
import LocalizedSite.Render.Markup

/-!
# Escaping and decoding

What `escapeMarkup` writes is decoded to the text that was escaped (`decode_escape_markup`), whatever
references the text itself looks like. A text without ampersand is decoded to itself.
-/

namespace LocalizedSite.Html.Entity

open Render

/-- Every character reference begins with an ampersand. -/
theorem recognize_eq_none {character : Char} (h : character ≠ '&') (text : Text) :
    recognize (character :: text) = none := by
  unfold recognize
  split
  · next heq => exact absurd (List.cons.inj heq).1 h
  · next heq => exact absurd (List.cons.inj heq).1 h
  · rfl

theorem skip_semicolon_le (text : Text) : (skipSemicolon text).length ≤ text.length := by
  unfold skipSemicolon
  split
  · simp
  · exact Nat.le_refl _

theorem take_semicolon_le (name rest : Text) : (takeSemicolon name rest).2.length ≤ rest.length := by
  unfold takeSemicolon
  split
  · simp
  · exact Nat.le_refl _

/-- A hexadecimal number is read up to its semicolon. -/
theorem consuming_hexadecimal {hex found rest : Text}
    (h : (match hex.span Text.isHexDigit with
      | ([], _) => none
      | (digits, following) => some (ofNumber (Text.hexValue digits), skipSemicolon following)) =
        some (found, rest)) : rest.length ≤ hex.length := by
  split at h
  · exact absurd h (by simp)
  · next behind _ hspan =>
      obtain ⟨-, rfl⟩ := Prod.mk.inj (Option.some.inj h)
      have hdigits := Text.length_of_span hspan
      exact (skip_semicolon_le behind).trans (by omega)

theorem consuming_recognize : Recognizer.Consuming recognize := by
  intro text found rest h
  unfold recognize at h
  split at h
  · next digits =>
      split at h
      · next hex hspan =>
          have hhex := consuming_hexadecimal h
          have hdigits := Text.length_of_span hspan
          simp only [List.length_cons] at hdigits ⊢
          omega
      · next hex hspan =>
          have hhex := consuming_hexadecimal h
          have hdigits := Text.length_of_span hspan
          simp only [List.length_cons] at hdigits ⊢
          omega
      · exact absurd h (by simp)
      · next behind _ _ _ hspan =>
          obtain ⟨-, rfl⟩ := Prod.mk.inj (Option.some.inj h)
          have hdigits := Text.length_of_span hspan
          have hsemicolon := skip_semicolon_le behind
          simp only [List.length_cons]
          omega
  · next following _ =>
      simp only at h
      split at h
      · exact absurd h (by simp)
      · obtain ⟨-, rfl⟩ := Prod.mk.inj (Option.some.inj h)
        have hsemicolon := take_semicolon_le ((following.take 32).takeWhile isNameCharacter)
          (following.drop ((following.take 32).takeWhile isNameCharacter).length)
        rw [List.length_drop] at hsemicolon
        simp only [List.length_cons]
        omega
  · exact absurd h (by simp)

/-- A character other than an ampersand stands for itself. -/
theorem decode_cons {character : Char} (h : character ≠ '&') (text : Text) :
    decode (character :: text) = character :: decode text :=
  Cuts.text_all_cons consuming_recognize id (recognize_eq_none h text)

/-- A character reference stands for what is read from it. -/
theorem decode_of_some {text found rest : Text} (h : recognize text = some (found, rest)) :
    decode text = found ++ decode rest :=
  Cuts.text_all_of_some consuming_recognize id h

/-- A text without ampersand is decoded to itself. -/
theorem decode_of_not_mem {text : Text} (h : '&' ∉ text) : decode text = text := by
  induction text with
  | nil => rfl
  | cons character text ih =>
      simp only [List.mem_cons, not_or] at h
      rw [decode_cons (Ne.symm h.1), ih h.2]

/-- What is written for a character is the character or a reference to it. -/
theorem escape_markup_character_cases (character : Char) :
    (character ≠ '&' ∧ escapeMarkupCharacter character = [character]) ∨
      ∀ rest, recognize (escapeMarkupCharacter character ++ rest) = some ([character], rest) := by
  unfold escapeMarkupCharacter
  split_ifs with hand hless hgreater hsingle hdouble
  · exact .inr fun rest ↦ by rw [hand]; rfl
  · exact .inr fun rest ↦ by rw [hless]; rfl
  · exact .inr fun rest ↦ by rw [hgreater]; rfl
  · exact .inr fun rest ↦ by rw [hsingle]; rfl
  · exact .inr fun rest ↦ by rw [hdouble]; rfl
  · exact .inl ⟨hand, rfl⟩

/-- An escaped text is decoded to the text. -/
theorem decode_escape_markup (text : Text) : decode (escapeMarkup text) = text := by
  induction text with
  | nil => rfl
  | cons character text ih =>
      have hescape : escapeMarkup (character :: text) =
          escapeMarkupCharacter character ++ escapeMarkup text := rfl
      rw [hescape]
      rcases escape_markup_character_cases character with ⟨hplain, hsame⟩ | hread
      · rw [hsame, List.singleton_append, decode_cons hplain, ih]
      · rw [decode_of_some (hread _), ih]
        rfl

/-- A character of an escaped text stands in the text and means nothing in markup, or belongs to a
reference. -/
theorem mem_escape_markup {character : Char} {text : Text} (h : character ∈ escapeMarkup text) :
    (character ∈ text ∧ character ∉ "<>'\"".toList) ∨ character ∈ "&#;34679aglmopqtu".toList := by
  obtain ⟨origin, horigin, hmem⟩ := List.mem_flatMap.mp h
  have hfixed {piece : Text} (hpiece : piece.all "&#;34679aglmopqtu".toList.contains = true)
      (hmem : character ∈ piece) :
      (character ∈ text ∧ character ∉ "<>'\"".toList) ∨ character ∈ "&#;34679aglmopqtu".toList :=
    .inr (List.contains_iff_mem.mp (List.all_eq_true.mp hpiece character hmem))
  unfold escapeMarkupCharacter at hmem
  split_ifs at hmem with hand hless hgreater hsingle hdouble
  · exact hfixed (by decide) hmem
  · exact hfixed (by decide) hmem
  · exact hfixed (by decide) hmem
  · exact hfixed (by decide) hmem
  · exact hfixed (by decide) hmem
  · obtain rfl := List.mem_singleton.mp hmem
    exact .inl ⟨horigin, by simp [hless, hgreater, hsingle, hdouble]⟩

/-- An escaped text has none of the characters that end an attribute or a tag. -/
theorem not_mem_escape_markup {character : Char} (h : character ∈ "<>'\"".toList) (text : Text) :
    character ∉ escapeMarkup text := by
  intro hmem
  have hnone : "&#;34679aglmopqtu".toList.all (fun found ↦ !"<>'\"".toList.contains found) = true := by
    decide
  rcases mem_escape_markup hmem with ⟨-, hplain⟩ | hfixed
  · exact hplain h
  · have hnot := List.all_eq_true.mp hnone character hfixed
    simp only [Bool.not_eq_true', List.contains_eq_mem, decide_eq_false_iff_not] at hnot
    exact hnot h

/-- Escaping brings no carriage returns. -/
theorem return_not_mem_escape_markup {text : Text} (h : '\r' ∉ text) : '\r' ∉ escapeMarkup text := by
  intro hmem
  rcases mem_escape_markup hmem with ⟨hmem, -⟩ | hfixed
  · exact h hmem
  · exact absurd hfixed (by decide)

end LocalizedSite.Html.Entity
