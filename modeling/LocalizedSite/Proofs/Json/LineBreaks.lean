import LocalizedSite.Proofs.Json.String
import LocalizedSite.Proofs.Json.WellFormed
import LocalizedSite.Proofs.Text.Lines

/-!
# Line breaks in written values

A written value has line feeds alone for line breaks (`return_not_mem_dump`), so that a file that
holds it is read as it was written.
-/

namespace LocalizedSite

namespace Json

/-- Escaping leaves no carriage return. -/
theorem return_not_mem_escape (text : Text) : '\r' ∉ escape text := by
  intro hmem
  obtain ⟨character, -, hmem⟩ := List.mem_flatMap.mp hmem
  rcases escape_character_cases character with ⟨hplain, -, -, hlow⟩ | ⟨letters, hescape, hletters⟩
  · rw [hplain] at hmem
    obtain rfl := List.mem_singleton.mp hmem
    exact hlow (by decide)
  · rw [hescape] at hmem
    rcases List.mem_cons.mp hmem with heq | hmem
    · exact absurd heq (by decide)
    · exact absurd (List.all_eq_true.mp hletters _ hmem) (by decide)

/-- A string literal has no carriage return. -/
theorem return_not_mem_quote (text : Text) : '\r' ∉ quote text := by
  intro hmem
  rcases List.mem_cons.mp hmem with heq | hmem
  · exact absurd heq (by decide)
  · rcases List.mem_append.mp hmem with hmem | hmem
    · exact return_not_mem_escape text hmem
    · exact absurd hmem (by decide)

/-- What stands between brackets stands in a part, apart from commas and line breaks. -/
theorem return_not_mem_block {opening closing : Char} (hopening : opening ≠ '\r')
    (hclosing : closing ≠ '\r') (indent width : Nat) {parts : List Text}
    (h : ∀ part ∈ parts, '\r' ∉ part) : '\r' ∉ block opening closing indent width parts := by
  have hline (count : Nat) : '\r' ∉ newLine count := by
    intro hmem
    rcases List.mem_cons.mp hmem with heq | hmem
    · exact absurd heq (by decide)
    · exact absurd (List.eq_of_mem_replicate hmem) (by decide)
  unfold block
  split
  · simp [hopening.symm, hclosing.symm]
  · intro hmem
    simp only [List.cons_append, List.mem_cons, List.mem_append, List.not_mem_nil, or_false] at hmem
    rcases hmem with heq | ((hmem | hmem) | hmem) | heq
    · exact hopening heq.symm
    · exact hline _ hmem
    · rcases Text.mem_join_with hmem with hmem | ⟨part, hpart, hmem⟩
      · rcases List.mem_cons.mp hmem with heq | hmem
        · exact absurd heq (by decide)
        · exact hline _ hmem
      · exact h part hpart hmem
    · exact hline _ hmem
    · exact hclosing heq.symm

/-- The texts of items, one by one. -/
theorem render_items_eq (indent width : Nat) (items : List Json) :
    renderItems indent width items = items.map (renderAt indent width) := by
  induction items with
  | nil => rfl
  | cons item items ih => rw [renderItems, ih, List.map_cons]

/-- The texts of members, one by one. -/
theorem render_members_eq (indent width : Nat) (members : List (Text × Json)) :
    renderMembers indent width members = members.map fun member ↦
      quote member.1 ++ ": ".toList ++ renderAt indent width member.2 := by
  induction members with
  | nil => rfl
  | cons member members ih =>
      obtain ⟨name, value⟩ := member
      rw [renderMembers, ih, List.map_cons]

/-- The text of a well-formed value has no carriage return. -/
theorem return_not_mem_render (indent : Nat) {value : Json} (h : WellFormed value) (width : Nat) :
    '\r' ∉ renderAt indent width value := by
  induction h generalizing width with
  | null => exact show '\r' ∉ "null".toList by decide
  | boolean value =>
      cases value with
      | false => exact show '\r' ∉ "false".toList by decide
      | true => exact show '\r' ∉ "true".toList by decide
  | integer value => exact fun hmem ↦ absurd (atom_character_of_mem_int hmem) (by decide)
  | float hnumber => exact fun hmem ↦ absurd (atom_character_of_mem_float hnumber hmem) (by decide)
  | string value => exact return_not_mem_quote value
  | array _ ih =>
      refine return_not_mem_block (by decide) (by decide) indent width fun part hpart ↦ ?_
      rw [render_items_eq] at hpart
      obtain ⟨item, hitem, rfl⟩ := List.mem_map.mp hpart
      exact ih item hitem _
  | object _ _ ih =>
      refine return_not_mem_block (by decide) (by decide) indent width fun part hpart ↦ ?_
      rw [render_members_eq] at hpart
      obtain ⟨member, hmember, rfl⟩ := List.mem_map.mp hpart
      intro hmem
      rcases List.mem_append.mp hmem with hmem | hmem
      · rcases List.mem_append.mp hmem with hmem | hmem
        · exact return_not_mem_quote _ hmem
        · exact absurd hmem (by decide)
      · exact ih member hmember _ hmem

/-- The text of a dictionary file has no carriage return. -/
theorem return_not_mem_dump {value : Json} (h : WellFormed value) : '\r' ∉ dump value :=
  return_not_mem_render 2 h 0

end Json

end LocalizedSite
