import LocalizedSite.Text.Blank
import LocalizedSite.Text.DecimalDigit
import LocalizedSite.Proofs.Text.Search

/-!
# Texts up to blanks

`withoutBlanks` deletes all white space, so that two texts can be compared apart from it.
`trim_spec` says that trimming removes only blanks, and only from the ends.
-/

namespace LocalizedSite.Text

/-- A digit is no blank. -/
theorem not_blank_of_digit {character : Char} (h : isLatinDigit character = true) :
    isBlank character = false := by
  simp only [isLatinDigit, Bool.and_eq_true, decide_eq_true_eq] at h
  have hlow : 48 ≤ character.toNat := h.1
  have hhigh : character.toNat ≤ 57 := h.2
  simp only [isBlank, inRanges, blankRanges, List.any_cons, List.any_nil, Bool.or_false,
    Bool.or_eq_false_iff, Bool.and_eq_false_iff, decide_eq_false_iff_not]
  omega

/-- A text with every blank deleted. -/
def withoutBlanks (text : Text) : Text :=
  text.filter fun character ↦ !isBlank character

@[simp]
theorem without_blanks_nil : withoutBlanks [] = [] := rfl

@[simp]
theorem without_blanks_append (first second : Text) :
    withoutBlanks (first ++ second) = withoutBlanks first ++ withoutBlanks second :=
  List.filter_append ..

/-- Only the first character decides about a blank in front. -/
theorem without_blanks_cons (character : Char) (text : Text) :
    withoutBlanks (character :: text) = withoutBlanks [character] ++ withoutBlanks text :=
  without_blanks_append [character] text

/-- Nothing is left of a text of blanks. -/
theorem without_blanks_of_blank {text : Text}
    (h : ∀ character ∈ text, isBlank character = true) : withoutBlanks text = [] := by
  simpa [withoutBlanks] using h

/-- Trimming at the end removes members of the class, and nothing else. -/
theorem trim_end_where_spec (drop : Char → Bool) (text : Text) :
    ∃ back, text = trimEndWhere drop text ++ back ∧ ∀ character ∈ back, drop character = true := by
  refine ⟨(text.reverse.takeWhile drop).reverse, ?_, fun character hmem ↦ ?_⟩
  · rw [trimEndWhere, ← List.reverse_append, List.takeWhile_append_dropWhile, List.reverse_reverse]
  · exact List.mem_takeWhile_imp (List.mem_reverse.mp hmem)

/-- Trimming removes members of the class from both ends, and nothing else. -/
theorem trim_where_spec (drop : Char → Bool) (text : Text) :
    ∃ front back, text = front ++ trimWhere drop text ++ back ∧
      (∀ character ∈ front, drop character = true) ∧
      ∀ character ∈ back, drop character = true := by
  obtain ⟨back, hend, hback⟩ := trim_end_where_spec drop (text.dropWhile drop)
  refine ⟨text.takeWhile drop, back, ?_, fun _ hmem ↦ List.mem_takeWhile_imp hmem, hback⟩
  rw [trimWhere, trimStartWhere, List.append_assoc, ← hend, List.takeWhile_append_dropWhile]

/-- Trimming removes blanks from both ends, and nothing else. -/
theorem trim_spec (text : Text) :
    ∃ front back, text = front ++ trim text ++ back ∧
      (∀ character ∈ front, isBlank character = true) ∧
      ∀ character ∈ back, isBlank character = true :=
  trim_where_spec isBlank text

/-- Blanks in front of a text that does not begin with one are removed. -/
theorem trim_start_append {first : Char} (hfirst : isBlank first = false) (front others : Text) :
    trimStart (front ++ first :: others) = trimStart front ++ first :: others := by
  rw [trimStart, trimStartWhere, List.dropWhile_append, List.dropWhile_cons_of_neg (by simp [hfirst])]
  split
  · next hempty => rw [trimStart, trimStartWhere, List.isEmpty_iff.mp hempty, List.nil_append]
  · rfl

/-- Blanks behind a text that does not end with one are removed. -/
theorem trim_end_append {last : Char} (hlast : isBlank last = false) (others back : Text) :
    trimEnd (others ++ last :: back) = others ++ last :: trimEnd back := by
  have hmirror := trim_start_append hlast back.reverse others.reverse
  have hreverse (text : Text) : trimEnd text = (trimStart text.reverse).reverse := rfl
  rw [hreverse, hreverse, List.reverse_append, List.reverse_cons, List.append_assoc,
    List.singleton_append, hmirror]
  simp

/-- Only what stands around a text is trimmed that has no blank at its ends. -/
theorem trim_around {first last : Char} (hfirst : isBlank first = false) (hlast : isBlank last = false)
    (front inner back : Text) :
    trim (front ++ (first :: (inner ++ last :: back))) =
      trimStart front ++ (first :: (inner ++ last :: trimEnd back)) := by
  have hinner : trimStart front ++ first :: (inner ++ last :: back) =
      (trimStart front ++ first :: inner) ++ last :: back := by simp
  show trimEnd (trimStart _) = _
  rw [trim_start_append hfirst, hinner, trim_end_append hlast]
  simp

/-- A trimmed text is the same text up to blanks. -/
@[simp]
theorem without_blanks_trim (text : Text) : withoutBlanks (trim text) = withoutBlanks text := by
  obtain ⟨front, back, htext, hfront, hback⟩ := trim_spec text
  conv_rhs => rw [htext]
  simp [without_blanks_of_blank hfront, without_blanks_of_blank hback]

/-- Trimming leaves characters of the text. -/
theorem mem_of_mem_trim {text : Text} {character : Char} (h : character ∈ trim text) :
    character ∈ text := by
  obtain ⟨front, back, htext, -, -⟩ := trim_spec text
  rw [htext]
  simp [h]

/-- Nothing is left after trimming exactly of a text of blanks. -/
theorem trim_eq_nil_iff {text : Text} : trim text = [] ↔ withoutBlanks text = [] := by
  constructor
  · intro h
    rw [← without_blanks_trim, h, without_blanks_nil]
  · intro h
    have hblank : ∀ character ∈ text, isBlank character = true := by
      simpa [withoutBlanks] using h
    rw [trim, trimWhere, trimStartWhere, List.dropWhile_eq_nil_iff.mpr hblank]
    rfl

end LocalizedSite.Text
