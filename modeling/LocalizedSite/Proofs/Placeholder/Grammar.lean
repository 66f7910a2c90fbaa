import LocalizedSite.Proofs.Seam

/-!
# The grammar of placeholders

A placeholder is written in one way only, and a text has it where it is written: `parse` gives a placeholder
exactly for its own text (`parse_eq_some`), and a text that is put together from placeholders and literal
pieces without braces is cut into the same pieces again (`IsComposed.all_recognize`). The two recognisers of
the program find the references and the structural placeholders among them in their order, whatever stands
next to each other (`grammar_reads_back`). In a complete text, where all opening braces begin a placeholder,
the references are those among its placeholders (`Complete.references`).
-/

namespace LocalizedSite

namespace Placeholder

/-- Read a placeholder of either kind at the beginning of a text. -/
def recognize : Recognizer Placeholder := fun text ↦
  match Reference.recognize text with
  | some (found, rest) => some (.reference found, rest)
  | none => (Structural.recognize text).map fun (value, rest) ↦ (.structural value, rest)

/-- A placeholder that the grammar of placeholders admits. -/
def IsWellFormed : Placeholder → Prop
  | .reference found => found.IsWellFormed
  | .structural _ => True

instance (placeholder : Placeholder) : Decidable placeholder.IsWellFormed :=
  match placeholder with
  | .reference found =>
    decidable_of_iff (found.scope ≠ [] ∧ found.scope.all Reference.isScopeCharacter = true ∧
        found.key ≠ [] ∧ found.key.all Reference.isKeyCharacter = true)
      (by simp [IsWellFormed, Reference.IsWellFormed])
  | .structural _ => inferInstanceAs (Decidable True)

/-- The reference, if the placeholder is one. -/
def reference? : Placeholder → Option Reference
  | .reference found => some found
  | .structural _ => none

/-- The structural value, if the placeholder is one. -/
def structural? : Placeholder → Option Structural
  | .reference _ => none
  | .structural value => some value

/-- A text that is read as a placeholder is that placeholder and the rest. -/
theorem recognize_eq_some {text rest : Text} {placeholder : Placeholder} :
    recognize text = some (placeholder, rest) ↔
      placeholder.IsWellFormed ∧ text = placeholder.text ++ rest := by
  unfold recognize
  constructor
  · intro h
    split at h
    · next found following hread =>
        obtain ⟨rfl, rfl⟩ := Prod.mk.inj (Option.some.inj h)
        exact Reference.recognize_eq_some.mp hread
    · obtain ⟨⟨value, following⟩, hread, heq⟩ := Option.map_eq_some_iff.mp h
      obtain ⟨rfl, rfl⟩ := Prod.mk.inj heq
      exact ⟨trivial, Structural.recognize_eq_some.mp hread⟩
  · rintro ⟨hwell, rfl⟩
    cases placeholder with
    | reference found =>
        rw [show (Placeholder.reference found).text = found.text from rfl,
          Reference.recognize_text hwell]
    | structural value =>
        have hnone : Reference.recognize (value.text ++ rest) = none := by cases value <;> rfl
        rw [show (Placeholder.structural value).text = value.text from rfl, hnone]
        simp only [Structural.recognize_text, Option.map_some]

/-- A written placeholder begins with the opening braces. -/
theorem begins_with_braces (placeholder : Placeholder) (rest : Text) :
    openBraces <+: placeholder.text ++ rest := by
  cases placeholder with
  | reference found => exact Reference.begins_with_braces found rest
  | structural value => exact ⟨value.name ++ closeBraces ++ rest, by
      simp [text, Structural.text, braced]⟩

/-- A text without the opening braces at its beginning is no placeholder. -/
theorem recognize_eq_none {text : Text} (h : ¬ openBraces <+: text) : recognize text = none := by
  cases hread : recognize text with
  | none => rfl
  | some result =>
      obtain ⟨-, rfl⟩ := recognize_eq_some.mp hread
      exact absurd (begins_with_braces ..) h

theorem consuming_recognize : Recognizer.Consuming recognize := by
  intro text placeholder rest h
  obtain ⟨-, rfl⟩ := recognize_eq_some.mp h
  have hlength := (begins_with_braces placeholder []).length_le
  rw [List.append_nil] at hlength
  have hpositive : 0 < openBraces.length := by decide
  rw [List.length_append]
  omega

/-- The recogniser of placeholders reads what is written for those that are well formed. -/
theorem reads_written : recognize.ReadsWritten text IsWellFormed :=
  ⟨consuming_recognize, recognize_eq_some⟩

/-- The parser gives a placeholder exactly for the text of a well-formed one. -/
theorem parse_eq_some {token : Text} {placeholder : Placeholder} :
    parse token = some placeholder ↔ placeholder.IsWellFormed ∧ token = placeholder.text := by
  have hwhole : parse token = Recognizer.whole? recognize token := by
    unfold parse Recognizer.whole? recognize
    rcases hreference : Reference.recognize token with _ | ⟨found, _ | ⟨character, rest⟩⟩
    · rcases Structural.recognize token with _ | ⟨value, _ | ⟨character, rest⟩⟩ <;> rfl
    · rfl
    · -- A reference with more text behind it begins no structural placeholder.
      obtain ⟨-, rfl⟩ := Reference.recognize_eq_some.mp hreference
      rw [Reference.text_eq, Structural.recognize_mark]
      rfl
  rw [hwhole]
  constructor
  · intro h
    unfold Recognizer.whole? at h
    split at h
    · next found hread =>
        obtain rfl := Option.some.inj h
        simpa using recognize_eq_some.mp hread
    · exact absurd h (by simp)
  · rintro ⟨hwell, rfl⟩
    have hread : recognize placeholder.text = some (placeholder, []) :=
      recognize_eq_some.mpr ⟨hwell, (List.append_nil _).symm⟩
    simp [Recognizer.whole?, hread]

end Placeholder

section Foreign

variable {α : Type} {recognize : Recognizer α}

/-- A literal text without an opening brace has no part in what is recognised behind double braces. -/
theorem Cuts.occurrences_all_literal (hconsuming : Recognizer.Consuming recognize)
    (hnone : ∀ text, ¬ openBraces <+: text → recognize text = none) {literal : Text}
    (h : '\x7b' ∉ literal) (rest : Text) :
    (Cuts.all recognize (literal ++ rest)).occurrences = (Cuts.all recognize rest).occurrences := by
  induction literal with
  | nil => rfl
  | cons character literal ih =>
      simp only [List.mem_cons, not_or] at h
      have hbraces : ¬ openBraces <+: character :: (literal ++ rest) :=
        Placeholder.not_begins_cons fun heq ↦ absurd heq.symm h.1
      rw [List.cons_append, Cuts.occurrences_all_cons hconsuming (hnone _ hbraces)]
      exact ih h.2

/-- A placeholder of another kind has no part either, as no opening brace stands behind its first two. -/
theorem Cuts.occurrences_all_foreign (hconsuming : Recognizer.Consuming recognize)
    (hnone : ∀ text, ¬ openBraces <+: text → recognize text = none) {inside : Text}
    (h : '\x7b' ∉ inside) (hinside : inside ≠ []) {rest : Text}
    (hforeign : recognize (openBraces ++ inside ++ rest) = none) :
    (Cuts.all recognize (openBraces ++ inside ++ rest)).occurrences =
      (Cuts.all recognize rest).occurrences := by
  obtain ⟨first, others, rfl⟩ := List.exists_cons_of_ne_nil hinside
  have hsecond : ¬ openBraces <+: '\x7b' :: (first :: others ++ rest) :=
    Placeholder.not_begins_cons fun _ hhead ↦ h (by simp [Option.some.inj hhead])
  have hsplit : openBraces ++ first :: others ++ rest =
      '\x7b' :: '\x7b' :: (first :: others ++ rest) := rfl
  rw [hsplit] at hforeign ⊢
  rw [Cuts.occurrences_all_cons hconsuming hforeign,
    Cuts.occurrences_all_cons hconsuming (hnone _ hsecond),
    Cuts.occurrences_all_literal hconsuming hnone h]

end Foreign

namespace Reference

/-- A structural placeholder has no part in the references of a text. -/
theorem all_behind_structural (value : Structural) (text : Text) :
    all (value.text ++ text) = all text := by
  have hnone : recognize (value.text ++ text) = none := by cases value <;> rfl
  have hinside : '\x7b' ∉ value.name ++ closeBraces := by cases value <;> decide
  have hbraced : value.text = openBraces ++ (value.name ++ closeBraces) := by
    simp [Structural.text, braced]
  rw [hbraced] at hnone ⊢
  exact Cuts.occurrences_all_foreign consuming_recognize (fun _ ↦ recognize_eq_none) hinside
    (by simp [closeBraces]) hnone

/-- The references of a text with a placeholder in front. -/
theorem all_behind {placeholder : Placeholder} (h : placeholder.IsWellFormed) (text : Text) :
    all (placeholder.text ++ text) = placeholder.reference?.toList ++ all text := by
  cases placeholder with
  | reference reference =>
      exact Cuts.occurrences_all_of_some consuming_recognize (recognize_text h text)
  | structural value => exact all_behind_structural value text

end Reference

namespace Placeholder

/-- A reference has no part in the structural placeholders of a text. -/
theorem structurals_behind_reference {reference : Reference} (h : reference.IsWellFormed)
    (text : Text) : structurals (reference.text ++ text) = structurals text := by
  have hnone : Structural.recognize (reference.text ++ text) = none := by
    rw [Reference.text_eq]
    exact Structural.recognize_mark _
  have hinside : '\x7b' ∉ "t.".toList ++ (reference.scope ++ '.' :: (reference.key ++ closeBraces)) := by
    obtain ⟨-, hscope, -, hkey⟩ := h
    have hnoScope : '\x7b' ∉ reference.scope := fun hmem ↦ absurd (hscope _ hmem) (by decide)
    have hnoKey : '\x7b' ∉ reference.key := fun hmem ↦ absurd (hkey _ hmem) (by decide)
    simp [hnoScope, hnoKey, closeBraces]
  have hbraced : reference.text = openBraces ++
      ("t.".toList ++ (reference.scope ++ '.' :: (reference.key ++ closeBraces))) := by
    simp [Reference.text, Reference.mark]
  rw [hbraced] at hnone ⊢
  exact Cuts.occurrences_all_foreign Structural.consuming_recognize
    (fun _ ↦ Structural.recognize_eq_none) hinside (by simp) hnone

/-- The structural placeholders of a text with a placeholder in front. -/
theorem structurals_behind {placeholder : Placeholder} (h : placeholder.IsWellFormed)
    (text : Text) :
    structurals (placeholder.text ++ text) = placeholder.structural?.toList ++ structurals text := by
  cases placeholder with
  | reference reference => exact structurals_behind_reference h text
  | structural value =>
      exact Cuts.occurrences_all_of_some Structural.consuming_recognize
        (Structural.recognize_text value text)

/-- All opening braces of a text begin a placeholder. -/
def Complete (text : Text) : Prop :=
  ∀ front back, text = front ++ openBraces ++ back → (recognize (openBraces ++ back)).isSome = true

instance (text : Text) : Decidable (Complete text) :=
  decidable_of_iff
    (∀ back ∈ text.tails, openBraces <+: back → (recognize back).isSome = true) <| by
    constructor
    · rintro h front back rfl
      exact h _ ((List.mem_tails _ _).mpr ⟨front, by simp⟩) ⟨back, rfl⟩
    · rintro h _ hmem ⟨back, rfl⟩
      obtain ⟨front, rfl⟩ := (List.mem_tails _ _).mp hmem
      exact h front back (by simp)

/-- The end of a complete text is complete. -/
theorem Complete.of_append {front back : Text} (h : Complete (front ++ back)) : Complete back := by
  rintro passed rest rfl
  exact h (front ++ passed) rest (by simp)

/-- Induction over the characters and placeholders of a complete text. -/
theorem Complete.induction {motive : Text → Prop} (nil : motive [])
    (character : ∀ character text, (character = '\x7b' → text.head? ≠ some '\x7b') → motive text →
      motive (character :: text))
    (placeholder : ∀ placeholder text, IsWellFormed placeholder → motive text →
      motive (placeholder.text ++ text))
    {text : Text} (h : Complete text) : motive text := by
  induction hlength : text.length using Nat.strong_induction_on generalizing text with
  | _ length ih =>
      cases text with
      | nil => exact nil
      | cons first rest =>
          by_cases hbraces : openBraces <+: first :: rest
          · obtain ⟨behind, hbehind⟩ := hbraces
            obtain ⟨⟨found, following⟩, hread⟩ :=
              Option.isSome_iff_exists.mp (h [] behind hbehind.symm)
            rw [hbehind] at hread
            have hshorter := consuming_recognize _ _ _ hread
            obtain ⟨hwell, htext⟩ := recognize_eq_some.mp hread
            rw [htext] at h ⊢
            exact placeholder found following hwell (ih _ (by omega) h.of_append rfl)
          · refine character first rest (fun hfirst hnext ↦ hbraces ?_) ?_
            · obtain ⟨behind, rfl⟩ := List.head?_eq_some_iff.mp hnext
              exact ⟨behind, by rw [hfirst]; rfl⟩
            · rw [← List.singleton_append] at h
              exact ih rest.length (by simp at hlength; omega) h.of_append rfl

/-- The references of a complete text are those among its placeholders. -/
theorem Complete.references {text : Text} (h : Complete text) :
    Reference.all text = (Cuts.all recognize text).occurrences.filterMap reference? := by
  refine Complete.induction (motive := fun text ↦ Reference.all text =
    (Cuts.all recognize text).occurrences.filterMap reference?) ?nil ?character ?placeholder h
  case nil => rfl
  case character =>
    intro character text hbrace ih
    have hnone := not_begins_cons hbrace
    rw [Reference.all, Cuts.occurrences_all_cons Reference.consuming_recognize
        (Reference.recognize_eq_none hnone),
      Cuts.occurrences_all_cons consuming_recognize (recognize_eq_none hnone)]
    exact ih
  case placeholder =>
    intro placeholder text hwell ih
    have hread : recognize (placeholder.text ++ text) = some (placeholder, text) :=
      recognize_eq_some.mpr ⟨hwell, rfl⟩
    rw [Cuts.occurrences_all_of_some consuming_recognize hread, Reference.all_behind hwell, ih]
    cases placeholder <;> rfl

/-- A text that is put together from well-formed placeholders and literal pieces without opening braces. -/
structure IsComposed (cuts : Cuts Placeholder) : Prop where
  literal : ∀ piece ∈ cuts.found, '\x7b' ∉ piece.1
  tail_literal : '\x7b' ∉ cuts.tail
  well_formed : ∀ piece ∈ cuts.found, piece.2.IsWellFormed

/-- The pieces behind the first one. -/
theorem IsComposed.tail {piece : Text × Placeholder} {found : List (Text × Placeholder)} {last : Text}
    (h : IsComposed ⟨piece :: found, last⟩) : IsComposed ⟨found, last⟩ :=
  ⟨fun other hmem ↦ h.literal other (List.mem_cons_of_mem _ hmem), h.tail_literal,
    fun other hmem ↦ h.well_formed other (List.mem_cons_of_mem _ hmem)⟩

/-- A composed text begins with its first literal piece and its first placeholder. -/
theorem text_cons (before : Text) (placeholder : Placeholder) (found : List (Text × Placeholder))
    (last : Text) :
    (⟨(before, placeholder) :: found, last⟩ : Cuts Placeholder).text text =
      before ++ (placeholder.text ++ (⟨found, last⟩ : Cuts Placeholder).text text) := by
  simp [Cuts.text]

/-- A composed text is cut into the pieces it is put together from. -/
theorem IsComposed.all_recognize {cuts : Cuts Placeholder} (h : IsComposed cuts) :
    Cuts.all recognize (cuts.text text) = cuts := by
  obtain ⟨found, last⟩ := cuts
  have hplain {literal : Text} (hliteral : '\x7b' ∉ literal) :
      Cuts.all recognize literal = .plain literal :=
    Cuts.all_of_literal (fun _ ↦ recognize_eq_none) (occurs_in_of_not_mem hliteral)
  induction found with
  | nil => exact hplain h.tail_literal
  | cons piece found ih =>
      obtain ⟨before, placeholder⟩ := piece
      have hbefore : '\x7b' ∉ before := h.literal _ (List.mem_cons_self ..)
      have hread (rest : Text) :
          recognize (placeholder.text ++ rest) = some (placeholder, rest) :=
        recognize_eq_some.mpr ⟨h.well_formed _ (List.mem_cons_self ..), rfl⟩
      have hseam (back : Text) : ¬ Cuts.Straddles text IsWellFormed before back :=
        Cuts.not_straddles_of_not_mem (fun placeholder _ ↦ by cases placeholder <;> rfl) hbefore back
      rw [text_cons, Cuts.all_append reads_written (hseam _), hplain hbefore,
        Cuts.all_of_some consuming_recognize (hread _), ih h.tail]
      cases found <;> simp [Cuts.append, Cuts.plain, Cuts.single]

/-- A search that passes over literal pieces and picks some of the placeholders finds those that it picks, in
their order. -/
theorem IsComposed.search {α : Type} {search : Text → List α} {pick : Placeholder → Option α}
    (hliteral : ∀ literal rest, '\x7b' ∉ literal → search (literal ++ rest) = search rest)
    (hplaceholder : ∀ placeholder rest, placeholder.IsWellFormed →
      search (placeholder.text ++ rest) = (pick placeholder).toList ++ search rest)
    (hnil : search [] = []) {cuts : Cuts Placeholder} (h : IsComposed cuts) :
    search (cuts.text text) = cuts.occurrences.filterMap pick := by
  obtain ⟨found, last⟩ := cuts
  induction found with
  | nil =>
      rw [show (⟨[], last⟩ : Cuts Placeholder).text text = last ++ [] by simp [Cuts.text],
        hliteral last [] h.tail_literal, hnil]
      rfl
  | cons piece found ih =>
      obtain ⟨before, placeholder⟩ := piece
      have hfirst := List.mem_cons_self (a := (before, placeholder)) (l := found)
      rw [text_cons, hliteral _ _ (h.literal _ hfirst),
        hplaceholder _ _ (h.well_formed _ hfirst), ih h.tail]
      cases hpick : pick placeholder <;> simp [Cuts.occurrences, hpick]

/-- The references of a composed text are those among its placeholders. -/
theorem IsComposed.references {cuts : Cuts Placeholder} (h : IsComposed cuts) :
    Reference.all (cuts.text text) = cuts.occurrences.filterMap reference? :=
  h.search
    (fun _ rest hmem ↦ Cuts.occurrences_all_literal Reference.consuming_recognize
      (fun _ ↦ Reference.recognize_eq_none) hmem rest)
    (fun _ rest hwell ↦ Reference.all_behind hwell rest) rfl

/-- The structural placeholders of a composed text are those among its placeholders. -/
theorem IsComposed.structurals {cuts : Cuts Placeholder} (h : IsComposed cuts) :
    structurals (cuts.text text) = cuts.occurrences.filterMap structural? :=
  h.search
    (fun _ rest hmem ↦ Cuts.occurrences_all_literal Structural.consuming_recognize
      (fun _ ↦ Structural.recognize_eq_none) hmem rest)
    (fun _ rest hwell ↦ structurals_behind hwell rest) rfl

/-- Placeholders are read back. The parser gives a reference exactly for the text of a well-formed one, a
structural placeholder exactly for its name between braces, and nothing for every other text. A text that is
put together from well-formed placeholders and literal pieces without opening braces is cut into these pieces
and no others, and the searches for references and for structural placeholders find those among its
placeholders in their order. -/
theorem grammar_reads_back :
    (∀ token reference, parse token = some (.reference reference) ↔
      reference.IsWellFormed ∧ token = reference.text) ∧
    (∀ token value, parse token = some (.structural value) ↔ token = braced value.name) ∧
    (∀ token, parse token = none ↔
      (∀ reference : Reference, reference.IsWellFormed → token ≠ reference.text) ∧
        ∀ value : Structural, token ≠ braced value.name) ∧
    ∀ cuts, IsComposed cuts →
      Cuts.all recognize (cuts.text text) = cuts ∧
        Reference.all (cuts.text text) = cuts.occurrences.filterMap reference? ∧
        structurals (cuts.text text) = cuts.occurrences.filterMap structural? := by
  refine ⟨fun token reference ↦ parse_eq_some, fun token value ↦ ?_, fun token ↦ ?_,
    fun cuts h ↦ ⟨h.all_recognize, h.references, h.structurals⟩⟩
  · exact parse_eq_some.trans (and_iff_right trivial)
  · rw [Option.eq_none_iff_forall_ne_some]
    constructor
    · intro hnone
      exact ⟨fun reference hwell htext ↦ hnone (.reference reference) (parse_eq_some.mpr ⟨hwell, htext⟩),
        fun value htext ↦ hnone (.structural value) (parse_eq_some.mpr ⟨trivial, htext⟩)⟩
    · rintro ⟨hreference, hstructural⟩ placeholder hparse
      obtain ⟨hwell, htext⟩ := parse_eq_some.mp hparse
      cases placeholder with
      | reference found => exact hreference found hwell htext
      | structural value => exact hstructural value htext

/-- A link whose label has a key with points, quotes and parentheses, with another reference right behind
it. -/
theorem grammar_reads_back_link :
    let tea : Reference := ⟨"home".toList, "Tea (1.5\" & more).h1".toList⟩
    let more : Reference := ⟨"shared".toList, "more".toList⟩
    let cuts : Cuts Placeholder :=
      ⟨[("<a href=\"/".toList, .structural .localePath), ("\">".toList, .reference tea),
        ([], .reference more)], "</a>".toList⟩
    IsComposed cuts ∧ parse tea.text = some (.reference tea) ∧
      Cuts.all recognize (cuts.text text) = cuts ∧
      Reference.all (cuts.text text) = [tea, more] ∧ structurals (cuts.text text) = [.localePath] := by
  intro tea more cuts
  have hcomposed : IsComposed cuts := ⟨by decide, by decide, by decide⟩
  obtain ⟨hreference, -, -, hcomposes⟩ := grammar_reads_back
  obtain ⟨hcuts, hreferences, hstructurals⟩ := hcomposes cuts hcomposed
  exact ⟨hcomposed, (hreference tea.text tea).mpr ⟨hcomposed.well_formed ("\">".toList, .reference tea)
    (by decide), rfl⟩, hcuts, hreferences, hstructurals⟩

end Placeholder

end LocalizedSite
