import LocalizedSite.Proofs.Text.Occurrence
import LocalizedSite.Proofs.Text.Slot

/-!
# Marks that stay

Some marks stand in a text one after the other (`HasMarks`). Where a piece of the text is replaced and no
mark goes into the piece, all of them still stand there (`HasMarks.replace`). A mark goes into a piece in
one of three ways: the piece begins inside the mark, it ends inside the mark, or it has the mark inside
(`Spares`).
-/

namespace LocalizedSite

/-- Marks stand in a text in this order, none overlapping the next. -/
inductive HasMarks : List Text → Text → Prop
  | nil (text : Text) : HasMarks [] text
  | cons (front : Text) {mark rest : Text} {marks : List Text} (h : HasMarks marks rest) :
      HasMarks (mark :: marks) (front ++ (mark ++ rest))

/-- A mark that stands in a text does not go into a piece between two others. -/
structure Spares (front piece back mark : Text) : Prop where
  nonempty : mark ≠ []
  /-- The piece does not begin inside the mark. -/
  entered : ∀ first second rest, mark = first ++ second → first ≠ [] → second ≠ [] →
    first <:+ front → second ++ rest ≠ piece ++ back
  /-- The piece does not end inside the mark. -/
  left : ∀ first second, mark = first ++ second → first ≠ [] → second ≠ [] → first <:+ piece →
    ¬ second <+: back
  /-- The mark is not inside the piece. -/
  inside : ¬ mark <:+: piece

variable {front piece back mark text : Text} {marks : List Text}

/-- A mark that does not go into a piece stands before it or behind it. -/
theorem Spares.cases (h : Spares front piece back mark) {before passed rest : Text}
    (hpassed : passed <:+ front)
    (hsplit : passed ++ (piece ++ back) = before ++ (mark ++ rest)) :
    (∃ between, passed = before ++ (mark ++ between) ∧ rest = between ++ (piece ++ back)) ∨
      ∃ between, back = between ++ (mark ++ rest) := by
  -- where the mark begins inside the piece or behind it
  have hbehind {skipped : Text} (hskipped : piece ++ back = skipped ++ (mark ++ rest)) :
      ∃ between, back = between ++ (mark ++ rest) := by
    rcases List.append_eq_append_iff.mp hskipped with ⟨between, -, hback⟩ | ⟨inner, hpiece, hmark⟩
    · exact ⟨between, hback⟩
    · rcases List.append_eq_append_iff.mp hmark with ⟨outer, hinner, -⟩ | ⟨outer, hsame, hback⟩
      · refine absurd ⟨skipped, outer, ?_⟩ h.inside
        rw [hpiece, hinner, List.append_assoc]
      · by_cases hfirst : inner = []
        · exact ⟨[], by rw [hback, hsame, hfirst]; rfl⟩
        · by_cases hsecond : outer = []
          · refine absurd ⟨skipped, [], ?_⟩ h.inside
            rw [hsame, hsecond, hpiece]
            simp
          · exact absurd ⟨rest, hback.symm⟩
              (h.left inner outer hsame hfirst hsecond ⟨skipped, hpiece.symm⟩)
  rcases List.append_eq_append_iff.mp hsplit with ⟨skipped, -, hskipped⟩ | ⟨inner, hinner, hmark⟩
  · exact .inr (hbehind hskipped)
  · rcases List.append_eq_append_iff.mp hmark with ⟨outer, hmore, hrest⟩ | ⟨outer, hsame, hrest⟩
    · exact .inl ⟨outer, by rw [hinner, hmore], hrest⟩
    · by_cases hfirst : inner = []
      · refine .inr (hbehind (show _ = [] ++ (mark ++ rest) from ?_))
        rw [hrest, hsame, hfirst]
        rfl
      · by_cases hsecond : outer = []
        · refine .inl ⟨[], ?_, ?_⟩
          · rw [hinner, hsame, hsecond, List.append_nil, List.append_nil]
          · rw [hrest, hsecond]
            rfl
        · have hsuffix : inner <:+ front := List.IsSuffix.trans ⟨before, hinner.symm⟩ hpassed
          exact absurd hrest.symm (h.entered inner outer rest hsame hfirst hsecond hsuffix)

namespace HasMarks

/-- Where a piece is replaced that no mark goes into, the marks stay. -/
theorem replace (h : HasMarks marks (front ++ (piece ++ back)))
    (hspares : ∀ mark ∈ marks, Spares front piece back mark) (other : Text) :
    HasMarks marks (front ++ (other ++ back)) := by
  have hpassed (passed : Text) (hsuffix : passed <:+ front)
      (h : HasMarks marks (passed ++ (piece ++ back))) :
      HasMarks marks (passed ++ (other ++ back)) := by
    clear * - hspares hsuffix h
    induction marks generalizing passed with
    | nil => exact .nil _
    | cons mark marks ih =>
        obtain ⟨hmark, hmarks⟩ := List.forall_mem_cons.mp hspares
        generalize htext : passed ++ (piece ++ back) = text at h
        cases h with
        | @cons before _ rest _ h =>
            rcases hmark.cases hsuffix htext with ⟨between, rfl, rfl⟩ | ⟨between, rfl⟩
            · have hbetween : between <:+ front :=
                (show between <:+ before ++ (mark ++ between) from
                  ⟨before ++ mark, by simp⟩).trans hsuffix
              have hrest : HasMarks (mark :: marks) _ := .cons before (ih hmarks between hbetween h)
              simpa using hrest
            · have hrest : HasMarks (mark :: marks) _ := .cons (passed ++ (other ++ between)) h
              simpa using hrest
  exact hpassed front List.suffix_rfl h

/-- Two marks are found one after the other, each from where the one before is found. -/
theorem exists_cut {first second : Text} (h : HasMarks [first, second] text) :
    ∃ front behind middle back, Text.cut? first text = some (front, behind) ∧
      Text.cut? second behind = some (middle, back) := by
  cases h with
  | cons before h =>
    cases h with
    | @cons between _ rest _ _ =>
      cases hfirst : Text.cut? first (before ++ (first ++ (between ++ (second ++ rest)))) with
      | none => exact absurd ⟨before, between ++ (second ++ rest), by simp⟩ (Text.cut_eq_none.mp hfirst)
      | some result =>
          obtain ⟨front, behind⟩ := result
          have hsplit := Text.cut_eq_some hfirst
          have hlength := Text.length_of_cut hfirst
          have hshort := Text.cut_first hfirst
            (show _ = before ++ first ++ (between ++ (second ++ rest)) by simp)
          have hlater : between ++ (second ++ rest) <:+ behind := by
            refine List.suffix_of_suffix_length_le ⟨before ++ first, ?_⟩ ⟨front ++ first, hsplit.symm⟩ ?_
            · simp
            · simp only [List.length_append] at hlength ⊢
              omega
          have hsecond : second <:+: behind :=
            List.IsInfix.trans ⟨between, rest, by simp⟩ hlater.isInfix
          cases hcut : Text.cut? second behind with
          | none => exact absurd hsecond (Text.cut_eq_none.mp hcut)
          | some result => exact ⟨front, behind, result.1, result.2, rfl, hcut⟩

end HasMarks

end LocalizedSite
