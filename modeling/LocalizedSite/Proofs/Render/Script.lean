import LocalizedSite.Proofs.Json.Spelling
import LocalizedSite.Proofs.Seam
import LocalizedSite.Render.Page

/-!
# Strings inside a script element

The form in which a text is written inside a block of linked data is the content of a JSON string that
stands for the text (`content_escape_in_script`), and it has no `</` (`no_end_escape_in_script`).
-/

namespace LocalizedSite

/-- What begins an end tag. -/
def endMark : Text := "</".toList

namespace Render

/-- A text in which every `</` is broken by a backslash. -/
def breakEnds : Text → Text
  | '<' :: '/' :: rest => '<' :: '\\' :: '/' :: breakEnds rest
  | character :: rest => character :: breakEnds rest
  | [] => []

/-- A character that does not begin `</` stays. -/
theorem break_ends_cons {character : Char} {text : Text}
    (h : character = '<' → text.head? ≠ some '/') :
    breakEnds (character :: text) = character :: breakEnds text := by
  conv => lhs; unfold breakEnds
  split
  · next hcons =>
      obtain ⟨rfl, rfl⟩ := List.cons.inj hcons
      exact absurd rfl (h rfl)
  · next hcons =>
      obtain ⟨rfl, rfl⟩ := List.cons.inj hcons
      rfl
  · next hcons => exact absurd hcons (by simp)

/-- Characters other than angle brackets stay. -/
theorem break_ends_append {front : Text} (h : '<' ∉ front) (text : Text) :
    breakEnds (front ++ text) = front ++ breakEnds text := by
  induction front with
  | nil => rfl
  | cons character front ih =>
      simp only [List.mem_cons, not_or] at h
      rw [List.cons_append, break_ends_cons fun heq ↦ absurd heq.symm h.1, ih h.2]
      rfl

/-- Replacing every `</` breaks the ends. -/
theorem replace_up_to_ends {limit : Nat} {text : Text} (h : text.length ≤ limit) :
    (Text.replaceUpTo endMark "<\\/".toList limit text).flatten = breakEnds text := by
  fun_induction breakEnds text generalizing limit with
  | case1 rest ih =>
      rw [List.length_cons, List.length_cons] at h
      obtain ⟨less, rfl⟩ : ∃ less, limit = less + 1 := ⟨limit - 1, by omega⟩
      have hcut : Text.cut? endMark ('<' :: '/' :: rest) = some ([], rest) := rfl
      have hrest := ih (show rest.length ≤ less by omega)
      simp only [Text.replaceUpTo, hcut, List.flatten_cons, hrest]
      rfl
  | case2 character rest hother ih =>
      rw [List.length_cons] at h
      obtain ⟨less, rfl⟩ : ∃ less, limit = less + 1 := ⟨limit - 1, by omega⟩
      have hnone : Text.after? endMark (character :: rest) = none := by
        rw [Text.after_eq_none]
        rintro ⟨behind, hbehind⟩
        obtain ⟨hfirst, hrest⟩ := List.cons.inj hbehind
        exact hother behind hfirst.symm hrest.symm
      have hrest := ih (show rest.length ≤ less + 1 by omega)
      rw [← hrest]
      simp only [Text.replaceUpTo, Text.cut_cons hnone]
      cases Text.cut? endMark rest with
      | none => simp
      | some result => simp
  | case3 =>
      cases limit with
      | zero => rfl
      | succ limit => rfl

/-- Breaking the ends keeps the first character. -/
theorem head_break_ends (text : Text) : (breakEnds text).head? = text.head? := by
  fun_cases breakEnds text with
  | case1 => rfl
  | case2 => rfl
  | case3 => rfl

/-- Nothing ends in a text whose ends are broken. -/
theorem no_end_break_ends (text : Text) : ¬ endMark <:+: breakEnds text := by
  fun_induction breakEnds text with
  | case1 rest ih =>
      rw [List.infix_cons_iff, List.infix_cons_iff, List.infix_cons_iff]
      rintro (hbegins | hbegins | hbegins | hlater)
      · exact absurd hbegins (by simp [endMark])
      · exact absurd hbegins (by simp [endMark])
      · exact absurd hbegins (by simp [endMark])
      · exact ih hlater
  | case2 character rest hother ih =>
      rw [List.infix_cons_iff]
      rintro (⟨behind, hbegins⟩ | hlater)
      · obtain ⟨hfirst, hbehind⟩ := List.cons.inj hbegins
        have hhead : rest.head? = some '/' := by rw [← head_break_ends, ← hbehind]; rfl
        obtain ⟨following, hrest⟩ := List.head?_eq_some_iff.mp hhead
        exact hother following hfirst.symm hrest
      · exact ih hlater
  | case3 => decide

/-- A text inside a script is its JSON form with the ends broken. -/
theorem escape_in_script_eq (text : Text) : escapeInScript text = breakEnds (Json.escape text) := by
  show Text.replaceAll endMark _ _ = _
  rw [Text.replaceAll, if_neg (by decide)]
  exact replace_up_to_ends (Nat.le_refl _)

/-- A text inside a script ends nothing. -/
theorem no_end_escape_in_script (text : Text) : ¬ endMark <:+: escapeInScript text := by
  rw [escape_in_script_eq]
  exact no_end_break_ends _

/-- Only the angle bracket itself is written with an angle bracket. -/
theorem not_mem_escape_character {character : Char} (h : character ≠ '<') :
    '<' ∉ Json.escapeCharacter character := by
  rcases Json.escape_character_cases character with ⟨hplain, -⟩ | ⟨letters, hescape, hletters⟩
  · rw [hplain, List.mem_singleton]
    exact h.symm
  · rw [hescape, List.mem_cons, not_or]
    exact ⟨by decide, fun hmem ↦ absurd (List.all_eq_true.mp hletters _ hmem) (by decide)⟩

/-- Only the slash itself is written with a slash in front. -/
theorem head_escape_character {character : Char} (h : character ≠ '/') (rest : Text) :
    (Json.escapeCharacter character ++ rest).head? ≠ some '/' := by
  rcases Json.escape_character_cases character with ⟨hplain, -⟩ | ⟨letters, hescape, -⟩
  · rw [hplain]
    exact Option.some_inj.not.mpr h
  · rw [hescape]
    exact Option.some_inj.not.mpr (by decide)

/-- What is written for a text inside a script is read as the text. -/
theorem read_string_break_ends (opening text rest : Text) (done : List Nat) :
    Json.readString opening done (breakEnds (Json.escape text) ++ '"' :: rest) =
      .ok (Json.settleUnits [] ((text.map Char.toNat).reverse ++ done), rest) := by
  fun_induction breakEnds text generalizing done with
  | case1 text ih =>
      have hescape : breakEnds (Json.escape ('<' :: '/' :: text)) =
          '<' :: '\\' :: '/' :: breakEnds (Json.escape text) := rfl
      rw [hescape, List.cons_append, Json.read_string_plain _ _ (by decide) (by decide) (by decide),
        List.cons_append, List.cons_append, Json.read_string_simple _ _ (by decide) rfl, ih]
      simp
  | case2 character text hother ih =>
      have hescape : breakEnds (Json.escape (character :: text)) =
          Json.escapeCharacter character ++ breakEnds (Json.escape text) := by
        show breakEnds (Json.escapeCharacter character ++ Json.escape text) = _
        by_cases hopen : character = '<'
        · subst hopen
          show breakEnds ('<' :: Json.escape text) = _
          refine break_ends_cons fun _ ↦ ?_
          cases text with
          | nil => exact Option.some_ne_none _ |>.symm
          | cons next text =>
              exact head_escape_character (fun heq ↦ hother text rfl (by rw [heq])) _
        · exact break_ends_append (not_mem_escape_character hopen) _
      rw [hescape, List.append_assoc, Json.read_string_character _ _ _ (by simp), ih]
      simp
  | case3 => rfl

/-- A text inside a script is the content of a JSON string that stands for it. -/
theorem content_escape_in_script (text : Text) : Json.IsContent (escapeInScript text) text := by
  intro opening rest
  rw [escape_in_script_eq, read_string_break_ends, Json.settle_units_text]

end Render

end LocalizedSite
