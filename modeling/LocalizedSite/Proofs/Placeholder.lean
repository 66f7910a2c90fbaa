import LocalizedSite.Placeholder
import LocalizedSite.Proofs.Text.Blanks
import LocalizedSite.Proofs.Text.Occurrence

/-!
# Placeholders inside a text

When a text has the opening braces of a placeholder, and what the recognisers of placeholders read.
`Reference.recognize_text` and `Structural.recognize_text` say that a placeholder that was written
is read back whatever follows it.
-/

namespace LocalizedSite

namespace Placeholder

/-- A text has a placeholder where it has the opening braces. -/
theorem occurs_in_iff {text : Text} : occursIn text = true ↔ openBraces <:+: text :=
  Text.contains_iff

/-- A text has no placeholder exactly when the opening braces are no piece of it. -/
theorem occurs_in_eq_false {text : Text} : occursIn text = false ↔ ¬ openBraces <:+: text := by
  rw [← occurs_in_iff, Bool.not_eq_true]

@[simp]
theorem occurs_in_nil : occursIn [] = false := rfl

/-- Whether a brace in front completes the opening braces is seen at the next character. -/
theorem occurs_in_cons {character : Char} {text : Text} :
    occursIn (character :: text) = false ↔
      (character = '\x7b' → text.head? ≠ some '\x7b') ∧ occursIn text = false := by
  simp only [occurs_in_eq_false, List.infix_cons_iff, not_or]
  refine and_congr_left fun _ ↦ ?_
  cases text with
  | nil => simp [openBraces]
  | cons next text => simp [openBraces, List.cons_prefix_cons, eq_comm]

/-- A piece of a text without placeholder has none. -/
theorem occurs_in_of_piece {piece text : Text} (hpiece : piece <:+: text)
    (h : occursIn text = false) : occursIn piece = false := by
  rw [occurs_in_eq_false] at h ⊢
  exact fun hbraces ↦ h (hbraces.trans hpiece)

/-- A text that has no brace at all has no placeholder. -/
theorem occurs_in_of_not_mem {text : Text} (h : '\x7b' ∉ text) : occursIn text = false := by
  rw [occurs_in_eq_false]
  exact fun hbraces ↦ h (hbraces.subset (by simp [openBraces]))

/-- Characters other than braces in front do not complete a placeholder. -/
theorem occurs_in_append_of_not_mem {front text : Text} (hfront : '\x7b' ∉ front)
    (h : occursIn text = false) : occursIn (front ++ text) = false := by
  induction front with
  | nil => exact h
  | cons character front ih =>
      simp only [List.mem_cons, not_or] at hfront
      rw [List.cons_append, occurs_in_cons]
      exact ⟨fun heq ↦ absurd heq.symm hfront.1, ih hfront.2⟩

/-- A character other than a brace in front of another brace begins no placeholder. -/
theorem not_begins_cons {character : Char} {text : Text}
    (h : character = '\x7b' → text.head? ≠ some '\x7b') : ¬ openBraces <+: character :: text := by
  rintro ⟨rest, hrest⟩
  obtain ⟨rfl, rfl⟩ := List.cons.inj hrest
  exact h rfl rfl

/-- The opening braces read the same from behind. -/
theorem occurs_in_reverse {text : Text} : occursIn text.reverse = occursIn text := by
  rw [Bool.eq_iff_iff, occurs_in_iff, occurs_in_iff, ← List.reverse_infix, List.reverse_reverse]
  rfl

/-- Characters other than braces at the end do not complete a placeholder. -/
theorem occurs_in_append_of_not_mem_right {text back : Text} (hback : '\x7b' ∉ back)
    (h : occursIn text = false) : occursIn (text ++ back) = false := by
  rw [← occurs_in_reverse, List.reverse_append]
  exact occurs_in_append_of_not_mem (by simpa using hback) (by rwa [occurs_in_reverse])

/-- Trimming keeps every placeholder. -/
theorem occurs_in_of_trim {text : Text} (h : occursIn (Text.trim text) = false) :
    occursIn text = false := by
  obtain ⟨front, back, htext, hfront, hback⟩ := Text.trim_spec text
  have hbrace : Text.isBlank '\x7b' = false := by decide
  rw [htext]
  refine occurs_in_append_of_not_mem_right ?_ (occurs_in_append_of_not_mem ?_ h)
  · exact fun hmem ↦ by simpa [hbrace] using hback _ hmem
  · exact fun hmem ↦ by simpa [hbrace] using hfront _ hmem

end Placeholder

namespace Reference

/-- A reference that the grammar of references admits. -/
def IsWellFormed (reference : Reference) : Prop :=
  reference.scope ≠ [] ∧ (∀ character ∈ reference.scope, isScopeCharacter character = true) ∧
    reference.key ≠ [] ∧ ∀ character ∈ reference.key, isKeyCharacter character = true

/-- A nonempty text of letters, digits and underscores. -/
def IsName (text : Text) : Prop :=
  text ≠ [] ∧ ∀ character ∈ text, isScopeCharacter character = true

instance (text : Text) : Decidable (IsName text) :=
  decidable_of_iff (text ≠ [] ∧ text.all isScopeCharacter = true) (by simp [IsName])

/-- A reference whose scope and key are names. -/
structure IsPlain (reference : Reference) : Prop where
  scope_name : IsName reference.scope
  key_name : IsName reference.key

/-- The grammar of references admits every plain one. -/
theorem IsPlain.is_well_formed {reference : Reference} (h : reference.IsPlain) :
    reference.IsWellFormed :=
  ⟨h.scope_name.1, h.scope_name.2, h.key_name.1, fun character hmem ↦ by
    simp [isKeyCharacter, h.key_name.2 character hmem]⟩

/-- A written reference begins with the opening braces. -/
theorem text_eq (reference : Reference) (rest : Text) :
    reference.text ++ rest =
      mark ++ (reference.scope ++ ('.' :: (reference.key ++ (closeBraces ++ rest)))) := by
  simp [text]

theorem begins_with_braces (reference : Reference) (rest : Text) :
    openBraces <+: reference.text ++ rest :=
  ⟨_, by rw [text_eq, mark, List.append_assoc]⟩

/-- A well-formed reference is read back whatever follows it. -/
theorem recognize_text {reference : Reference} (h : reference.IsWellFormed) (rest : Text) :
    recognize (reference.text ++ rest) = some (reference, rest) := by
  obtain ⟨hscope, hscopeChars, hkey, hkeyChars⟩ := h
  have hscopeSpan := Text.span_append ('.' :: (reference.key ++ (closeBraces ++ rest)))
    hscopeChars fun character hhead ↦ by
      obtain rfl : '.' = character := by simpa using hhead
      decide
  have hkeySpan := Text.span_append (closeBraces ++ rest)
    hkeyChars fun character hhead ↦ by
      obtain rfl : '\x7d' = character := by simpa [closeBraces] using hhead
      decide
  have hpoint : Text.after? ['.'] ('.' :: (reference.key ++ (closeBraces ++ rest))) =
      some (reference.key ++ (closeBraces ++ rest)) := Text.after_append ['.'] _
  simp only [recognize, text_eq, bind, Text.after_append, Option.bind_some, hscopeSpan, hpoint,
    hkeySpan]
  simp [hscope, hkey]

/-- A text that is read as a reference is that reference and the rest, and the reference is well
formed. -/
theorem recognize_eq_some {text rest : Text} {reference : Reference} :
    recognize text = some (reference, rest) ↔
      reference.IsWellFormed ∧ text = reference.text ++ rest := by
  constructor
  · intro h
    simp only [recognize, bind, Option.bind_eq_some_iff] at h
    obtain ⟨following, hmark, h⟩ := h
    rcases hscope : following.span isScopeCharacter with ⟨scope, afterScope⟩
    simp only [hscope] at h
    obtain ⟨afterPoint, hpoint, h⟩ := h
    rcases hkey : afterPoint.span isKeyCharacter with ⟨key, afterKey⟩
    simp only [hkey] at h
    obtain ⟨last, hclose, h⟩ := h
    rw [Text.after_eq_some] at hmark hpoint hclose
    obtain ⟨rfl, hscopeChars, -⟩ := Text.span_spec hscope
    obtain ⟨rfl, hkeyChars, -⟩ := Text.span_spec hkey
    split at h
    · exact absurd h (by simp)
    · next hempty =>
        obtain ⟨rfl, rfl⟩ := by simpa using h
        simp only [Bool.or_eq_true, List.isEmpty_iff, not_or] at hempty
        refine ⟨⟨hempty.1, hscopeChars, hempty.2, hkeyChars⟩, ?_⟩
        rw [text_eq, hmark, hpoint, hclose]
        simp
  · rintro ⟨hwell, rfl⟩
    exact recognize_text hwell rest

/-- A text without the opening braces at its beginning is no reference. -/
theorem recognize_eq_none {text : Text} (h : ¬ openBraces <+: text) : recognize text = none := by
  cases hread : recognize text with
  | none => rfl
  | some result =>
      obtain ⟨-, rfl⟩ := recognize_eq_some.mp hread
      exact absurd (begins_with_braces ..) h

theorem consuming_recognize : Recognizer.Consuming recognize := by
  intro text reference rest h
  obtain ⟨-, rfl⟩ := recognize_eq_some.mp h
  simp [text, mark, openBraces]
  omega

/-- The references of a text are well formed. -/
theorem well_formed_of_mem {text : Text} {reference : Reference}
    (h : reference ∈ (Cuts.all recognize text).occurrences) : reference.IsWellFormed := by
  obtain ⟨occurrence, rest, hread⟩ := Cuts.read_of_mem_all consuming_recognize h
  exact (recognize_eq_some.mp hread).1

/-- With the references as they are written, a cut text is the text. -/
theorem text_all (text : Text) : (Cuts.all recognize text).text Reference.text = text := by
  refine Cuts.all_induction consuming_recognize
    (motive := fun text cuts ↦ cuts.text Reference.text = text) (fun text _ ↦ rfl) ?_ text
  intro text before found rest hfirst ih
  obtain ⟨occurrence, rfl, hread, -⟩ := Recognizer.first_eq_some hfirst
  rw [(recognize_eq_some.mp hread).2]
  conv => rhs; rw [← ih]
  simp [Cuts.text]

end Reference

namespace Structural

/-- Every structural value is listed. -/
theorem mem_all (value : Structural) : value ∈ all := by
  cases value <;> decide

/-- A structural placeholder is read back whatever follows it. -/
theorem recognize_text (value : Structural) (rest : Text) :
    recognize (value.text ++ rest) = some (value, rest) := by
  cases value <;> rfl

/-- A text that is read as a structural placeholder is that placeholder and the rest. -/
theorem recognize_eq_some {text rest : Text} {value : Structural} :
    recognize text = some (value, rest) ↔ text = value.text ++ rest := by
  constructor
  · intro h
    obtain ⟨found, -, hfound⟩ := List.exists_of_findSome?_eq_some h
    obtain ⟨following, hafter, heq⟩ := Option.map_eq_some_iff.mp hfound
    obtain ⟨rfl, rfl⟩ := Prod.mk.inj heq
    exact Text.after_eq_some.mp hafter
  · rintro rfl
    exact recognize_text value rest

/-- A text without the opening braces at its beginning is no structural placeholder. -/
theorem recognize_eq_none {text : Text} (h : ¬ openBraces <+: text) : recognize text = none := by
  cases hread : recognize text with
  | none => rfl
  | some result =>
      have htext := recognize_eq_some.mp hread
      refine absurd ⟨result.1.name ++ closeBraces ++ result.2, ?_⟩ h
      simp [htext, Structural.text, braced]

/-- A reference is no structural placeholder. -/
theorem recognize_mark (rest : Text) : recognize (Reference.mark ++ rest) = none := rfl

theorem consuming_recognize : Recognizer.Consuming recognize := by
  intro text value rest h
  rw [recognize_eq_some.mp h]
  simp [Structural.text, braced, openBraces]
  omega

end Structural

end LocalizedSite
