import LocalizedSite.Proofs.Extract.Run
import LocalizedSite.Proofs.Placeholder

/-!
# The keys of extracted texts

Every key that extraction makes by itself is a name, whatever the text it is made for, and so are
the keys that come from a vocabulary whose own keys and classes are: `Run.key_name`.
-/

namespace LocalizedSite

open Reference

/-- A name with more letters, digits and underscores behind it is a name. -/
theorem Reference.IsName.append {front back : Text} (hfront : IsName front)
    (hback : ∀ character ∈ back, isScopeCharacter character = true) : IsName (front ++ back) := by
  refine ⟨by simp [hfront.1], fun character hmem ↦ ?_⟩
  rcases List.mem_append.mp hmem with hmem | hmem
  · exact hfront.2 character hmem
  · exact hback character hmem

/-- The digits of a number may stand in a name. -/
theorem Text.scope_character_of_mem_of_nat {number : Nat} {character : Char}
    (h : character ∈ Text.ofNat number) : isScopeCharacter character = true := by
  have hdigit : character.isDigit = true :=
    Nat.isDigit_of_mem_toDigits (by decide) (by decide) h
  simp only [Char.isDigit, Bool.and_eq_true, decide_eq_true_eq] at hdigit
  simp only [isScopeCharacter, Text.isLatinDigit, Bool.or_eq_true, Bool.and_eq_true,
    decide_eq_true_eq]
  exact .inl (.inr hdigit)

namespace Extract

/-- The numbered keys of a category are names if the category is. -/
theorem numbered_name {category : Text} (h : IsName category) (number : Nat) :
    IsName (KeyCounts.numbered category number) := by
  simp only [KeyCounts.numbered]
  split
  · exact h
  · refine h.append fun character hmem ↦ ?_
    rcases List.mem_cons.mp hmem with rfl | hmem
    · decide
    · exact Text.scope_character_of_mem_of_nat hmem

/-- The keys of structured data are names. -/
theorem linked_data_key_name {field : Text} (hfield : field ∈ textFields) (block number : Nat) :
    IsName (linkedDataKey block field number) := by
  have hfields : ∀ field ∈ textFields, IsName field := by decide
  have hunderscore {text : Text} (htext : ∀ character ∈ text, isScopeCharacter character = true) :
      ∀ character ∈ '_' :: text, isScopeCharacter character = true := by
    intro character hmem
    rcases List.mem_cons.mp hmem with rfl | hmem
    · decide
    · exact htext character hmem
  have hbeginning : IsName ("jsonld_".toList ++ Text.ofNat block) :=
    IsName.append (by decide) fun _ ↦ Text.scope_character_of_mem_of_nat
  exact (hbeginning.append (hunderscore (hfields field hfield).2)).append
    (hunderscore fun _ ↦ Text.scope_character_of_mem_of_nat)

/-- The characters of a slug may stand in a name. -/
theorem scope_character_of_slug {character : Char} (h : isSlugCharacter character = true) :
    isScopeCharacter character = true := by
  simp only [isSlugCharacter, Bool.or_eq_true] at h
  rcases h with h | h
  · simp [isScopeCharacter, Text.isLatinLetter, h]
  · simp [isScopeCharacter, h]

/-- Replacing runs of other characters by underscores leaves what may stand in a name. -/
theorem scope_character_of_mem_underscore_runs (inRun : Bool) (text : Text) :
    ∀ character ∈ underscoreRuns inRun text, isScopeCharacter character = true := by
  induction text generalizing inRun with
  | nil => simp [underscoreRuns]
  | cons first text ih =>
      simp only [underscoreRuns]
      split
      · next hslug =>
          intro character hmem
          rcases List.mem_cons.mp hmem with rfl | hmem
          · exact scope_character_of_slug hslug
          · exact ih false character hmem
      · split
        · exact ih true
        · intro character hmem
          rcases List.mem_cons.mp hmem with rfl | hmem
          · decide
          · exact ih true character hmem

/-- The key of a table header is a name. -/
theorem header_key_name (label : Text) : IsName (headerKey label) := by
  refine IsName.append (by decide) fun character hmem ↦ ?_
  obtain ⟨front, back, htext, -, -⟩ :=
    Text.trim_where_spec (· == '_') (underscoreRuns false (Text.lower label))
  refine scope_character_of_mem_underscore_runs false (Text.lower label) character ?_
  rw [htext]
  simp [hmem]

/-- The key of a cell label is a name. -/
theorem label_key_name (label : Text) : IsName (labelKey label) := by
  refine IsName.append (by decide) fun character hmem ↦ ?_
  obtain ⟨other, -, rfl⟩ := List.mem_map.mp hmem
  split
  · next hslug => exact scope_character_of_slug hslug
  · decide

/-- The keys and the categories that come from a vocabulary are names. -/
structure Vocabulary.HasNames (vocabulary : Vocabulary) : Prop where
  category_name : ∀ category ∈ vocabulary.categories, IsName category
  label_name : ∀ entry ∈ vocabulary.labels, IsName entry.2

theorem Vocabulary.standard_has_names : Vocabulary.standard.HasNames :=
  ⟨by decide, by decide⟩

/-- Whatever text is taken, its key is a name if the fixed keys are. -/
theorem Harvest.Step.key_name {vocabulary : Vocabulary} {state next : Agenda × Harvest}
    {taking : Taking} (hvocabulary : vocabulary.HasNames)
    (hagenda : ∀ fixed ∈ state.1, IsName fixed.2) (h : Step vocabulary state taking next) :
    IsName taking.key := by
  cases h with
  | fixed agenda harvest taking => exact hagenda _ (List.mem_cons_self ..)
  | numbered agenda harvest hcategory text =>
      exact numbered_name (hvocabulary.category_name _ hcategory) _
  | header agenda harvest label => exact header_key_name label
  | cell agenda harvest label => exact label_key_name label
  | label agenda harvest hlabel => exact hvocabulary.label_name _ hlabel

/-- The keys of all texts taken along a sequence of steps are names if the fixed keys are. -/
theorem Harvest.Gathers.key_name {vocabulary : Vocabulary} {state next : Agenda × Harvest}
    (hvocabulary : vocabulary.HasNames) (hagenda : ∀ fixed ∈ state.1, IsName fixed.2)
    (h : Gathers vocabulary state next) (htaken : ∀ taking ∈ state.2.taken, IsName taking.key) :
    ∀ taking ∈ next.2.taken, IsName taking.key :=
  h.forall_taken (fun fixed ↦ IsName fixed.2) hagenda
    (fun hfixed hstep ↦ hstep.key_name hvocabulary hfixed) htaken

/-- The fixed keys of a run are names. -/
theorem Run.agenda_name {vocabulary : Vocabulary} {scope brand html : Text}
    (run : Run vocabulary scope brand html) : ∀ fixed ∈ run.agenda, IsName fixed.2 := by
  have hhead : ∀ key ∈ headKeys, IsName key := by decide
  have hplace : ∀ key ∈ footerKeys ++ popupKeys, IsName key := by decide
  have hlinked : ∀ key ∈ run.linkedKeys, IsName key := by
    intro key hmem
    obtain ⟨blocks, hfields, hkeys⟩ := scan_linked_data_keys scope (fillHead run.headed.1)
    rw [Run.linkedKeys, hkeys] at hmem
    obtain ⟨fields, hblock, block, field, hfield, number, rfl⟩ := mem_linked_data_keys hmem
    exact linked_data_key_name (hfields fields hblock field hfield) block number
  intro fixed hmem
  rcases List.mem_append.mp hmem with hmem | hmem
  · obtain ⟨key, hkey, rfl⟩ := List.mem_map.mp hmem
    exact (List.mem_append.mp hkey).elim (hhead key) (hlinked key)
  · obtain ⟨key, hkey, rfl⟩ := List.mem_map.mp hmem
    exact hplace key hkey

/-- The keys of all texts taken along a run are names. -/
theorem Run.key_name {vocabulary : Vocabulary} {scope brand html : Text}
    (hvocabulary : vocabulary.HasNames) (run : Run vocabulary scope brand html) :
    ∀ taking ∈ run.popped.2.taken, IsName taking.key :=
  run.gathers.key_name hvocabulary run.agenda_name (by simp [Harvest.empty])

end Extract

end LocalizedSite
