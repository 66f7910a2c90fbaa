import LocalizedSite.Proofs.Extract.Keys

/-!
# References that are read back

Extraction writes a reference for every text it takes, and the grammar of references decides which of
them are read again. The keys that extraction makes by itself always are; what a site configures is
written as it stands. `extract_reads_back_iff` says which configured texts decide whether every
reference of a page is read back: the key of the page, the keys of the labels that were shared, and
the categories of the classes under which a text was numbered.
-/

namespace LocalizedSite

open Reference

/-- A text that the grammar of references admits as a key. -/
def Reference.IsKey (text : Text) : Prop :=
  text ≠ [] ∧ ∀ character ∈ text, isKeyCharacter character = true

instance (text : Text) : Decidable (IsKey text) :=
  decidable_of_iff (text ≠ [] ∧ text.all isKeyCharacter = true) (by simp [IsKey])

/-- A reference that is read back, alone and wherever it stands in a text. -/
structure Reference.ReadsBack (reference : Reference) : Prop where
  parse_eq : Placeholder.parse reference.text = some (.reference reference)
  recognize_eq : ∀ rest, recognize (reference.text ++ rest) = some (reference, rest)

/-- A name is a key. -/
theorem Reference.IsName.is_key {text : Text} (h : IsName text) : IsKey text :=
  ⟨h.1, fun character hmem ↦ by simp [isKeyCharacter, h.2 character hmem]⟩

/-- A key with a name behind it is a key exactly when the key alone is. -/
theorem Reference.is_key_append {front back : Text} (hfront : front ≠ [])
    (hback : ∀ character ∈ back, isScopeCharacter character = true) :
    IsKey (front ++ back) ↔ IsKey front := by
  constructor
  · exact fun h ↦ ⟨hfront, fun character hmem ↦ h.2 character (by simp [hmem])⟩
  · refine fun h ↦ ⟨by simp [hfront], fun character hmem ↦ ?_⟩
    rcases List.mem_append.mp hmem with hmem | hmem
    · exact h.2 character hmem
    · simp [isKeyCharacter, hback character hmem]

/-- The grammar admits a reference by its scope and its key. -/
theorem Reference.well_formed_iff {reference : Reference} :
    reference.IsWellFormed ↔ IsName reference.scope ∧ IsKey reference.key := by
  simp only [IsWellFormed, IsName, IsKey, and_assoc]

/-- A reference is read back exactly when the grammar admits it. -/
theorem Reference.reads_back_iff {reference : Reference} :
    reference.ReadsBack ↔ reference.IsWellFormed := by
  constructor
  · rintro ⟨-, hrecognize⟩
    exact (recognize_eq_some.mp (hrecognize [])).1
  · intro hwell
    have hread : recognize reference.text = some (reference, []) := by
      simpa using recognize_text hwell []
    exact ⟨by simp [Placeholder.parse, Recognizer.whole?, hread], recognize_text hwell⟩

namespace Extract

/-- The categories made from the classes of a vocabulary. -/
def Vocabulary.classCategories (vocabulary : Vocabulary) : List Text :=
  vocabulary.spanClasses.map (classCategory "span".toList) ++
    vocabulary.divClasses.map (classCategory "div".toList) ++
    vocabulary.linkClasses.map (classCategory "link".toList)

/-- Where the key of a text comes from: extraction makes a name, or the vocabulary says what stands
in the key. -/
inductive Taking.KeyOrigin (vocabulary : Vocabulary) : Taking → Prop
  /-- A name. -/
  | name {taking : Taking} (hname : IsName taking.key) : KeyOrigin vocabulary taking
  /-- The key of a label. -/
  | label {label key : Text} (hlabel : (label, key) ∈ vocabulary.labels) :
      KeyOrigin vocabulary ⟨.shared, key, label⟩
  /-- A number in the category of a class. -/
  | numbered {category : Text} (hcategory : category ∈ vocabulary.classCategories) (number : Nat)
      (text : Text) : KeyOrigin vocabulary ⟨.own, KeyCounts.numbered category number, text⟩

/-- The categories of body texts are names or made from classes. -/
theorem Vocabulary.name_or_class_category {vocabulary : Vocabulary} {category : Text}
    (h : category ∈ vocabulary.categories) :
    IsName category ∨ category ∈ vocabulary.classCategories := by
  have helements : ∀ element ∈ textElements, IsName element := by decide
  have hbutton : IsName "btn".toList := by decide
  simp only [categories, classCategories, List.mem_append, List.mem_singleton] at h ⊢
  rcases h with (((h | h) | h) | rfl) | h
  · exact .inl (helements category h)
  · exact .inr (.inl (.inl h))
  · exact .inr (.inl (.inr h))
  · exact .inl hbutton
  · exact .inr (.inr h)

/-- The category of a class is not empty. -/
theorem Vocabulary.class_category_ne_nil {vocabulary : Vocabulary} {category : Text}
    (h : category ∈ vocabulary.classCategories) : category ≠ [] := by
  simp only [classCategories, List.mem_append, List.mem_map] at h
  rcases h with (⟨cssClass, -, rfl⟩ | ⟨cssClass, -, rfl⟩) | ⟨cssClass, -, rfl⟩ <;>
    simp [classCategory]

/-- A numbered key is a key exactly when its category is. -/
theorem numbered_is_key_iff {category : Text} (h : category ≠ []) (number : Nat) :
    IsKey (KeyCounts.numbered category number) ↔ IsKey category := by
  simp only [KeyCounts.numbered]
  split
  · rfl
  · refine is_key_append h fun character hmem ↦ ?_
    rcases List.mem_cons.mp hmem with rfl | hmem
    · decide
    · exact Text.scope_character_of_mem_of_nat hmem

/-- Whatever text is taken, its key is a name or comes from the vocabulary, if the fixed keys are
names. -/
theorem Harvest.Step.key_origin {vocabulary : Vocabulary} {state next : Agenda × Harvest}
    {taking : Taking} (hagenda : ∀ fixed ∈ state.1, IsName fixed.2)
    (h : Step vocabulary state taking next) : taking.KeyOrigin vocabulary := by
  cases h with
  | fixed agenda harvest taking => exact .name (hagenda _ (List.mem_cons_self ..))
  | numbered agenda harvest hcategory text =>
      rcases Vocabulary.name_or_class_category hcategory with hname | hclass
      · exact .name (numbered_name hname _)
      · exact .numbered hclass _ text
  | header agenda harvest label => exact .name (header_key_name label)
  | cell agenda harvest label => exact .name (label_key_name label)
  | label agenda harvest hlabel => exact .label hlabel

/-- The keys of all texts taken along a run are names or come from the vocabulary. -/
theorem Run.key_origin {vocabulary : Vocabulary} {scope brand html : Text}
    (run : Run vocabulary scope brand html) :
    ∀ taking ∈ run.popped.2.taken, taking.KeyOrigin vocabulary :=
  run.gathers.forall_taken (fun fixed ↦ IsName fixed.2) run.agenda_name
    (fun hagenda hstep ↦ hstep.key_origin hagenda) (by simp [Harvest.empty])

/-- The scope of a text's reference is a name, except that the page's own may be none. -/
theorem Taking.scope_name_iff {scope : Text} {taking : Taking} :
    IsName (taking.reference scope).scope ↔ (taking.keeping = .own → IsName scope) := by
  have hshared : IsName sharedScope := by decide
  obtain ⟨keeping, key, text⟩ := taking
  cases keeping <;> simp [Taking.reference, hshared]

@[simp]
theorem Taking.reference_key (scope : Text) (taking : Taking) :
    (taking.reference scope).key = taking.key := by
  obtain ⟨keeping, key, text⟩ := taking
  cases keeping <;> rfl

/-- A text's reference is read back by what stands in the key, and for the page's own texts by the
scope. -/
theorem Taking.reads_back_iff {scope : Text} {taking : Taking} :
    (taking.reference scope).ReadsBack ↔
      (taking.keeping = .own → IsName scope) ∧ IsKey taking.key := by
  rw [Reference.reads_back_iff, well_formed_iff, scope_name_iff, reference_key]

/-- The references to the texts of a page are all read back exactly when the page has no own text or
its key is a name, and every key that comes from the vocabulary is one: the key of each label that
was shared, and the category of each class under which a text was numbered. -/
theorem extract_reads_back_iff {vocabulary : Vocabulary} {scope brand html template : Text}
    {harvest : Harvest}
    (hrun : extractContent? scope vocabulary brand html = some (template, harvest)) :
    (∀ taking ∈ harvest.taken, (taking.reference scope).ReadsBack) ↔
      (∀ taking ∈ harvest.taken, taking.keeping = .own → IsName scope) ∧
      (∀ entry ∈ vocabulary.labels, ⟨.shared, entry.2, entry.1⟩ ∈ harvest.taken → IsKey entry.2) ∧
      ∀ category ∈ vocabulary.classCategories, ∀ number text,
        ⟨.own, KeyCounts.numbered category number, text⟩ ∈ harvest.taken → IsKey category := by
  obtain ⟨run, rfl, -⟩ := exists_run hrun
  simp only [Taking.reads_back_iff, imp_and, forall_and, and_congr_right_iff]
  intro _
  constructor
  · intro hkeys
    refine ⟨fun entry _ hmem ↦ hkeys _ hmem, fun category hcategory number text hmem ↦ ?_⟩
    exact (numbered_is_key_iff (Vocabulary.class_category_ne_nil hcategory) number).mp (hkeys _ hmem)
  · rintro ⟨hlabels, hcategories⟩ taking hmem
    cases run.key_origin taking hmem with
    | name hname => exact hname.is_key
    | label hlabel => exact hlabels _ hlabel hmem
    | numbered hcategory number text =>
        exact (numbered_is_key_iff (Vocabulary.class_category_ne_nil hcategory) number).mpr
          (hcategories _ hcategory number text hmem)

/-- The reference to the heading of a page whose key has a hyphen is not read back. -/
theorem extract_leaves_hyphen_unread :
    let harvest : Harvest := ⟨"about-us".toList, [("h1".toList, 1)],
      [("h1".toList, "About us".toList)], [], [⟨.own, "h1".toList, "About us".toList⟩]⟩
    extractContent? "about-us".toList .standard [] "<h1>About us</h1>".toList =
        some ("<h1>\x7b\x7bt.about-us.h1\x7d\x7d</h1>".toList, harvest) ∧
      ¬ ∀ taking ∈ harvest.taken, (taking.reference "about-us".toList).ReadsBack := by
  intro harvest
  have hrun : extractContent? "about-us".toList .standard [] "<h1>About us</h1>".toList =
      some ("<h1>\x7b\x7bt.about-us.h1\x7d\x7d</h1>".toList, harvest) := by
    decide +kernel
  refine ⟨hrun, fun hread ↦ ?_⟩
  obtain ⟨hscope, -⟩ := (extract_reads_back_iff hrun).mp hread
  exact absurd (hscope _ (List.mem_cons_self ..) rfl) (by decide)

end Extract

end LocalizedSite
