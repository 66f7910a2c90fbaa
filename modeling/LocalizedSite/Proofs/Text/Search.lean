import LocalizedSite.Text.Basic
import Mathlib.Data.List.Infix
import Mathlib.Data.List.TakeWhile

/-!
# Searching in a text

What the searches of `Text` find. `after_eq_some` and `cut_eq_some` say where a literal stands,
`contains_iff` that containment is being a contiguous piece, and `span_spec` what a run of a
character class leaves behind.
-/

namespace LocalizedSite.Text

/-- Behind a literal beginning stands exactly the rest. -/
@[simp]
theorem after_append (beginning rest : Text) : after? beginning (beginning ++ rest) = some rest := by
  induction beginning with
  | nil => cases rest <;> rfl
  | cons character beginning ih => simpa [after?] using ih

/-- A rest is found exactly when the text is the beginning followed by it. -/
theorem after_eq_some {beginning text rest : Text} :
    after? beginning text = some rest ↔ text = beginning ++ rest := by
  constructor
  · intro h
    induction beginning generalizing text with
    | nil => cases text <;> simpa [after?] using h
    | cons wanted beginning ih =>
        cases text with
        | nil => simp [after?] at h
        | cons found text =>
            simp only [after?] at h
            split at h
            · next heq => rw [heq, ih h, List.cons_append]
            · exact absurd h (by simp)
  · rintro rfl
    exact after_append beginning rest

/-- No rest is found exactly when the text does not begin so. -/
theorem after_eq_none {beginning text : Text} :
    after? beginning text = none ↔ ¬ beginning <+: text := by
  constructor
  · rintro h ⟨rest, rfl⟩
    simp at h
  · intro h
    cases hrest : after? beginning text with
    | none => rfl
    | some rest => exact absurd ⟨rest, (after_eq_some.mp hrest).symm⟩ h

/-- A cut leaves the needle out and keeps the passed characters in front. -/
theorem cut_from_eq_some {needle passed text before rest : Text}
    (h : cutFrom needle passed text = some (before, rest)) :
    ∃ skipped, before = passed.reverse ++ skipped ∧ text = skipped ++ needle ++ rest ∧
      ∀ front back, text = front ++ needle ++ back → skipped.length ≤ front.length := by
  induction text generalizing passed with
  | nil =>
      simp only [cutFrom] at h
      split at h
      · next hneedle =>
          obtain ⟨rfl, rfl⟩ := Prod.mk.inj (Option.some.inj h)
          exact ⟨[], by simp, by simp [hneedle], by simp⟩
      · exact absurd h (by simp)
  | cons character text ih =>
      simp only [cutFrom] at h
      split at h
      · next following hfollowing =>
          obtain ⟨rfl, rfl⟩ := Prod.mk.inj (Option.some.inj h)
          exact ⟨[], by simp, by simpa using after_eq_some.mp hfollowing, by simp⟩
      · next hnone =>
          obtain ⟨skipped, rfl, htext, hfirst⟩ := ih h
          refine ⟨character :: skipped, by simp, by simp [htext], ?_⟩
          intro front back hsplit
          cases front with
          | nil =>
              refine absurd ⟨back, ?_⟩ (after_eq_none.mp hnone)
              simpa using hsplit.symm
          | cons first front =>
              have hrest : text = front ++ needle ++ back := by
                simpa using (List.cons.inj hsplit).2
              simpa using hfirst front back hrest

/-- A cut is made at an occurrence of the needle. -/
theorem cut_eq_some {needle text before rest : Text} (h : cut? needle text = some (before, rest)) :
    text = before ++ needle ++ rest := by
  obtain ⟨skipped, rfl, htext, -⟩ := cut_from_eq_some h
  simpa using htext

/-- What stands behind a cut is shorter by the needle and by what stands before it. -/
theorem length_of_cut {needle text before rest : Text} (h : cut? needle text = some (before, rest)) :
    before.length + needle.length + rest.length = text.length := by
  rw [cut_eq_some h, List.length_append, List.length_append]

/-- A cut is made at the first occurrence of the needle. -/
theorem cut_first {needle text before rest front back : Text}
    (h : cut? needle text = some (before, rest)) (hsplit : text = front ++ needle ++ back) :
    before.length ≤ front.length := by
  obtain ⟨skipped, rfl, -, hfirst⟩ := cut_from_eq_some h
  simpa using hfirst front back hsplit

/-- A needle that occurs is found. -/
theorem cut_from_ne_none {needle passed front back : Text} :
    cutFrom needle passed (front ++ needle ++ back) ≠ none := by
  induction front generalizing passed with
  | nil =>
      cases hneedle : needle with
      | nil => cases back <;> simp [cutFrom, after?]
      | cons character needle =>
          have hafter : after? (character :: needle) (character :: (needle ++ back)) = some back :=
            after_append (character :: needle) back
          simp [cutFrom, hafter]
  | cons character front ih =>
      simp only [List.cons_append, cutFrom]
      split
      · simp
      · exact ih

/-- Containment is being a contiguous piece. -/
theorem contains_iff {text needle : Text} : contains text needle = true ↔ needle <:+: text := by
  simp only [contains, Option.isSome_iff_ne_none]
  constructor
  · intro h
    obtain ⟨⟨before, rest⟩, hcut⟩ := Option.ne_none_iff_exists'.mp h
    exact ⟨before, rest, (cut_eq_some hcut).symm⟩
  · rintro ⟨before, rest, rfl⟩
    exact cut_from_ne_none

/-- Nothing is found exactly when the needle is no piece of the text. -/
theorem cut_eq_none {needle text : Text} : cut? needle text = none ↔ ¬ needle <:+: text := by
  rw [← contains_iff, contains]
  cases cut? needle text <;> simp

/-- A needle that does not stand at the first character is looked for behind it. -/
theorem cut_cons {needle : Text} {character : Char} {text : Text}
    (h : after? needle (character :: text) = none) : cut? needle (character :: text) =
      (cut? needle text).map fun (before, rest) ↦ (character :: before, rest) := by
  have hmap (passed text : Text) : cutFrom needle passed text =
      (cut? needle text).map fun (before, rest) ↦ (passed.reverse ++ before, rest) := by
    induction text generalizing passed with
    | nil =>
        by_cases hneedle : needle = []
        · simp [cut?, cutFrom, hneedle]
        · simp [cut?, cutFrom, hneedle]
    | cons first text ih =>
        unfold cut?
        simp only [cutFrom]
        cases after? needle (first :: text) with
        | some rest => simp
        | none =>
            simp only
            rw [ih (first :: passed), ih [first]]
            cases cut? needle text with
            | none => rfl
            | some result => simp
  rw [cut?, cutFrom, h]
  exact hmap [character] text

/-- What stands in front without the first character of a needle is passed. -/
theorem cut_foreign {first : Char} {others gap : Text} (h : first ∉ gap) (text : Text) :
    cut? (first :: others) (gap ++ text) =
      (cut? (first :: others) text).map fun (before, rest) ↦ (gap ++ before, rest) := by
  induction gap with
  | nil => simp
  | cons character gap ih =>
      rw [List.mem_cons, not_or] at h
      have hnone : after? (first :: others) (character :: (gap ++ text)) = none := by
        rw [after_eq_none]
        exact fun hprefix ↦ h.1 (List.cons_prefix_cons.mp hprefix).1
      rw [List.cons_append, cut_cons hnone, ih h.2, Option.map_map]
      rfl

/-- The first place of a needle in a text is the first one with something behind the text. -/
theorem cut_append {needle text front back : Text} (h : cut? needle text = some (front, back))
    (tail : Text) : cut? needle (text ++ tail) = some (front, back ++ tail) := by
  have htext := cut_eq_some h
  have hwhole : text ++ tail = front ++ needle ++ (back ++ tail) := by
    rw [htext, List.append_assoc]
  cases hcut : cut? needle (text ++ tail) with
  | none => exact absurd ⟨front, back ++ tail, hwhole.symm⟩ (cut_eq_none.mp hcut)
  | some result =>
      obtain ⟨before, rest⟩ := result
      have hsplit := cut_eq_some hcut
      have hlength := cut_first hcut hwhole
      -- an earlier place would lie in the text as well
      have hprefix : before ++ needle <+: text := by
        refine List.prefix_of_prefix_length_le ⟨rest, hsplit.symm⟩ (List.prefix_append text tail) ?_
        rw [htext]
        simp only [List.length_append]
        omega
      obtain ⟨behind, hbehind⟩ := hprefix
      have hsame := hlength.antisymm (cut_first h hbehind.symm)
      rw [hsplit, List.append_assoc, List.append_assoc] at hwhole
      obtain ⟨rfl, hrest⟩ := List.append_inj hwhole hsame
      rw [List.append_cancel_left hrest]

/-- A needle is found behind a text that does not have it and ends with no character of it. -/
theorem cut_at_end {needle text : Text} (hnone : ¬ needle <:+: text)
    (hlast : ∀ character, text.getLast? = some character → character ∉ needle) (rest : Text) :
    cut? needle (text ++ (needle ++ rest)) = some (text, rest) := by
  cases hcut : cut? needle (text ++ (needle ++ rest)) with
  | none => exact absurd ⟨text, rest, by simp⟩ (cut_eq_none.mp hcut)
  | some result =>
      obtain ⟨before, behind⟩ := result
      have hsplit := cut_eq_some hcut
      have hlength := cut_first hcut (show _ = text ++ needle ++ rest by simp)
      rw [List.append_assoc] at hsplit
      rcases List.append_eq_append_iff.mp hsplit with ⟨piece, hbefore, hpiece⟩ | ⟨piece, htext, hpiece⟩
      · obtain rfl : piece = [] := by
          rw [hbefore, List.length_append] at hlength
          exact List.length_eq_zero_iff.mp (by omega)
        rw [List.append_nil] at hbefore
        rw [hbefore, List.append_cancel_left hpiece]
      · -- the needle would begin within the text
        rcases List.eq_nil_or_concat piece with rfl | ⟨others, last, rfl⟩
        · rw [List.append_nil] at htext
          rw [htext, List.append_cancel_left hpiece]
        · exfalso
          rcases List.append_eq_append_iff.mp hpiece with ⟨inside, hinside, -⟩ | ⟨inside, hneedle, -⟩
          · exact hnone ⟨before, inside, by rw [htext, hinside, List.append_assoc]⟩
          · refine hlast last (by rw [htext]; simp) ?_
            rw [hneedle]
            simp

/-- Without an occurrence there is nothing to replace. -/
theorem replace_first_of_none {needle text : Text} (h : cut? needle text = none)
    (replacement : Text) : replaceFirst needle replacement text = text := by
  simp only [replaceFirst, replaceUpTo, h]
  exact List.append_nil text

/-- The first occurrence is replaced where it stands. -/
theorem replace_first_of_some {needle text before rest : Text}
    (h : cut? needle text = some (before, rest)) (replacement : Text) :
    replaceFirst needle replacement text = before ++ replacement ++ rest := by
  simp [replaceFirst, replaceUpTo, h]

/-- A text begins with another one exactly when that is its prefix. -/
theorem starts_with_iff {text beginning : Text} :
    startsWith text beginning = true ↔ beginning <+: text := by
  simp [startsWith]

/-- A run of a class is followed by its end or by a character outside of the class. -/
theorem span_spec {allowed : Char → Bool} {text run rest : Text}
    (h : text.span allowed = (run, rest)) :
    text = run ++ rest ∧ (∀ character ∈ run, allowed character = true) ∧
      ∀ character, rest.head? = some character → allowed character = false := by
  rw [List.span_eq_takeWhile_dropWhile] at h
  obtain ⟨rfl, rfl⟩ := Prod.mk.inj h
  refine ⟨by simp, fun character hmem ↦ List.mem_takeWhile_imp hmem, ?_⟩
  intro character hhead
  have hnot := List.head?_dropWhile_not allowed text
  rw [hhead] at hnot
  simpa using hnot

/-- What follows a run of a class is no longer than the text. -/
theorem length_of_span {allowed : Char → Bool} {text run rest : Text}
    (h : text.span allowed = (run, rest)) : run.length + rest.length = text.length := by
  rw [(span_spec h).1, List.length_append]

/-- A run of a class is read whole if no member of the class follows. -/
theorem span_append {allowed : Char → Bool} {run : Text} (rest : Text)
    (hrun : ∀ character ∈ run, allowed character = true)
    (hrest : ∀ character, rest.head? = some character → allowed character = false) :
    (run ++ rest).span allowed = (run, rest) := by
  rw [List.span_eq_takeWhile_dropWhile]
  induction run with
  | nil =>
      cases rest with
      | nil => rfl
      | cons character rest => simp [hrest character rfl]
  | cons character run ih =>
      have hhead : allowed character = true := hrun character (by simp)
      have htail := ih fun other hmem ↦ hrun other (by simp [hmem])
      simp only [Prod.mk.injEq] at htail
      simp [hhead, htail.1, htail.2]

end LocalizedSite.Text
