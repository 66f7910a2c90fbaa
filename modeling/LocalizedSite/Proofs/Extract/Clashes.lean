import LocalizedSite.Proofs.Extract.Run

/-!
# Which keys can clash, and which texts are lost

With a vocabulary that keeps its own keys apart, two different texts get the same key only if the key
is made from the text of a table header or of a cell label: `Run.clash`. Fixed keys come once, the
keys of a category are numbered, and a label of the vocabulary has its own key. `extract_holds_iff` says
when the dictionaries of a page hold every text that a reference of its template stands for: exactly
when no key was given to two different texts.
-/

namespace LocalizedSite.Extract

open Harvest

/-- The text ends with an underscore and a number. -/
def EndsInNumber (text : Text) : Prop :=
  ∃ front number, text = front ++ '_' :: Text.ofNat number

/-- The key is one of those that are made from the text of a table header or a cell label. -/
def IsSlug (key : Text) : Prop :=
  Text.startsWith key "th_".toList = true ∨ Text.startsWith key "dl_".toList = true

instance (key : Text) : Decidable (IsSlug key) :=
  inferInstanceAs (Decidable (_ ∨ _))

/-- No category of the vocabulary looks like a numbered key of another one, different labels have
different keys, and no label has the key of a place. -/
structure Vocabulary.KeepsApart (vocabulary : Vocabulary) : Prop where
  category_apart : ∀ category ∈ vocabulary.categories, ¬ EndsInNumber category
  label_apart : ∀ first ∈ vocabulary.labels, ∀ second ∈ vocabulary.labels,
    first.2 = second.2 → first.1 = second.1
  place_apart : ∀ entry ∈ vocabulary.labels, entry.2 ∉ footerKeys ++ popupKeys

section Numbers

/-- A text does not end in a number if no underscore stands before its last digits. -/
theorem not_ends_in_number {text : Text}
    (h : (text.reverse.dropWhile Char.isDigit).head? ≠ some '_') : ¬ EndsInNumber text := by
  rintro ⟨front, number, rfl⟩
  have hdigits : ∀ character ∈ (Text.ofNat number).reverse, character.isDigit = true :=
    fun character hmem ↦ Text.digit_of_mem_of_nat (List.mem_reverse.mp hmem)
  rw [List.reverse_append, List.reverse_cons, List.append_assoc,
    List.dropWhile_append_of_pos hdigits] at h
  exact h rfl

/-- The numbered keys of categories that do not look like numbered keys are all different. -/
theorem numbered_injective {category other : Text} {number index : Nat}
    (hcategory : ¬ EndsInNumber category) (hother : ¬ EndsInNumber other)
    (h : KeyCounts.numbered category number = KeyCounts.numbered other index) :
    category = other ∧ number = index := by
  simp only [KeyCounts.numbered] at h
  split at h <;> split at h
  · next hnumber hindex => exact ⟨h, hnumber.trans hindex.symm⟩
  · exact absurd ⟨other, index, h⟩ hcategory
  · exact absurd ⟨category, number, h.symm⟩ hother
  · exact Text.append_of_nat_inj (by decide) h

/-- The number of keys given out in a category. -/
def KeyCounts.count (counts : KeyCounts) (category : Text) : Nat :=
  (Entries.get? counts category).getD 0

/-- The next key of a category counts one more in it. -/
theorem count_next (counts : KeyCounts) (category other : Text) :
    (counts.next category).2.count other =
      if other = category then counts.count category + 1 else counts.count other := by
  unfold KeyCounts.count KeyCounts.next
  rw [Entries.get_put]
  split <;> simp_all

end Numbers

section Agendas

variable {vocabulary : Vocabulary}

/-- The fixed keys are different from each other and from all other keys. -/
structure Agenda.Apart (vocabulary : Vocabulary) (fixed : Agenda) : Prop where
  nodup : fixed.Nodup
  numbered_apart : ∀ category ∈ vocabulary.categories, ∀ number,
    (.own, KeyCounts.numbered category number) ∉ fixed
  label_apart : ∀ entry ∈ vocabulary.labels, (.shared, entry.2) ∉ fixed
  slug_apart : ∀ key, (.shared, key) ∈ fixed → ¬ IsSlug key

/-- A text whose first character is among some has one of them in front. -/
theorem head_among {initials text : Text}
    (h : text.head?.any (fun initial ↦ initials.elem initial) = true) :
    ∃ initial ∈ initials, text.head? = some initial := by
  obtain ⟨initial, hhead, helem⟩ := (Option.any_eq_true _ _).mp h
  exact ⟨initial, List.elem_iff.mp helem, hhead⟩

/-- A category begins like an element, a button or a link. -/
theorem category_head {category : Text} (h : category ∈ vocabulary.categories) (number : Nat) :
    ∃ initial ∈ ['h', 'p', 's', 'd', 'b', 'l'],
      (KeyCounts.numbered category number).head? = some initial := by
  have hcategory : ∃ initial ∈ ['h', 'p', 's', 'd', 'b', 'l'], category.head? = some initial := by
    have helement : ∀ element ∈ textElements,
        element.head?.any (fun initial ↦ ['h', 'p', 's', 'd', 'b', 'l'].elem initial) = true := by
      decide
    simp only [Vocabulary.categories, List.mem_append, List.mem_map, List.mem_singleton] at h
    rcases h with (((h | ⟨cssClass, -, rfl⟩) | ⟨cssClass, -, rfl⟩) | rfl) | ⟨cssClass, -, rfl⟩
    · exact head_among (helement category h)
    · exact ⟨'s', by decide, rfl⟩
    · exact ⟨'d', by decide, rfl⟩
    · exact ⟨'b', by decide, rfl⟩
    · exact ⟨'l', by decide, rfl⟩
  obtain ⟨initial, hinitial, hhead⟩ := hcategory
  refine ⟨initial, hinitial, ?_⟩
  unfold KeyCounts.numbered
  split
  · exact hhead
  · rw [List.head?_append, hhead]
    rfl

/-- The keys of linked data begin alike. -/
theorem linked_data_key_head {blocks : List (List Text)} {key : Text}
    (h : key ∈ linkedDataKeys blocks) : key.head? = some 'j' := by
  obtain ⟨fields, -, block, field, -, number, rfl⟩ := mem_linked_data_keys h
  rfl

/-- The keys of the head, of some blocks of linked data and of the places are apart from all other keys if the
vocabulary keeps them apart. -/
theorem agenda_apart (hvocabulary : vocabulary.KeepsApart) (blocks : List (List Text)) :
    Agenda.Apart vocabulary (agendaOf .own (headKeys ++ linkedDataKeys blocks) ++
      agendaOf .shared (footerKeys ++ popupKeys)) := by
  have hheads : ∀ key ∈ headKeys,
      key.head?.any (fun initial ↦ ['m', 'o', 't'].elem initial) = true := by decide
  have hown {key : Text} (h : (.own, key) ∈ agendaOf .own (headKeys ++ linkedDataKeys blocks) ++
      agendaOf .shared (footerKeys ++ popupKeys)) : key ∈ headKeys ++ linkedDataKeys blocks := by
    simpa [agendaOf] using h
  have hshared {key : Text} (h : (.shared, key) ∈ agendaOf .own (headKeys ++ linkedDataKeys blocks) ++
      agendaOf .shared (footerKeys ++ popupKeys)) : key ∈ footerKeys ++ popupKeys := by
    simpa [agendaOf] using h
  refine ⟨?_, fun category hcategory number hmem ↦ ?_, fun entry hentry hmem ↦ ?_,
    fun key hmem ↦ ?_⟩
  · have hkept : (headKeys ++ linkedDataKeys blocks).Nodup := by
      refine List.nodup_append.mpr ⟨by decide, nodup_linked_data_keys blocks, ?_⟩
      rintro key hhead other hlinked rfl
      obtain ⟨initial, hinitial, heq⟩ := head_among (hheads key hhead)
      rw [linked_data_key_head hlinked, Option.some.injEq] at heq
      subst heq
      exact absurd hinitial (by decide)
    have hplaces : (footerKeys ++ popupKeys).Nodup := by decide
    refine List.nodup_append.mpr ⟨hkept.map fun _ _ heq ↦ (Prod.mk.inj heq).2,
      hplaces.map fun _ _ heq ↦ (Prod.mk.inj heq).2, ?_⟩
    intro fixed hfixed other hother heq
    obtain ⟨key, -, rfl⟩ := List.mem_map.mp hfixed
    obtain ⟨place, -, rfl⟩ := List.mem_map.mp hother
    exact absurd (Prod.mk.inj heq).1 (by decide)
  · obtain ⟨initial, hinitial, hhead⟩ := category_head hcategory number
    rcases List.mem_append.mp (hown hmem) with hmem | hmem
    · obtain ⟨other, hother, heq⟩ := head_among (hheads _ hmem)
      rw [hhead, Option.some.injEq] at heq
      subst heq
      have hdisjoint : ['h', 'p', 's', 'd', 'b', 'l'].all
          (fun initial ↦ ['m', 'o', 't'].elem initial == false) = true := by decide
      have hnot := List.all_eq_true.mp hdisjoint initial hinitial
      rw [List.elem_iff.mpr hother] at hnot
      exact absurd hnot (by decide)
    · rw [linked_data_key_head hmem, Option.some.injEq] at hhead
      subst hhead
      exact absurd hinitial (by decide)
  · exact hvocabulary.place_apart entry hentry (hshared hmem)
  · have hplaces : ∀ key ∈ footerKeys ++ popupKeys, ¬ IsSlug key := by decide
    exact hplaces key (hshared hmem)

/-- The fixed keys of a run are apart from all other keys. -/
theorem Run.agenda_apart {scope brand html : Text} (hvocabulary : vocabulary.KeepsApart)
    (run : Run vocabulary scope brand html) : Agenda.Apart vocabulary run.agenda := by
  obtain ⟨blocks, -, hkeys⟩ := scan_linked_data_keys scope (fillHead run.headed.1)
  rw [Run.agenda, Run.linkedKeys, hkeys]
  exact Extract.agenda_apart hvocabulary blocks

end Agendas

section Clashes

variable {vocabulary : Vocabulary}

/-- How a taken text came to its key: the key was on the agenda and is not any more, it was given out
in a category, it was made from the text, or the text is a label with this key. -/
inductive Explained (vocabulary : Vocabulary) (fixed : Agenda) (state : Agenda × Harvest) :
    Taking → Prop
  | fixed (taking : Taking) (hfixed : (taking.keeping, taking.key) ∈ fixed)
      (hused : (taking.keeping, taking.key) ∉ state.1) : Explained vocabulary fixed state taking
  | numbered {category : Text} (hcategory : category ∈ vocabulary.categories) {number : Nat}
      (hcount : number ≤ state.2.counts.count category) (text : Text) :
      Explained vocabulary fixed state ⟨.own, KeyCounts.numbered category number, text⟩
  | slug {key : Text} (hslug : IsSlug key) (text : Text) :
      Explained vocabulary fixed state ⟨.shared, key, text⟩
  | label {label key : Text} (hlabel : (label, key) ∈ vocabulary.labels) :
      Explained vocabulary fixed state ⟨.shared, key, label⟩

/-- Two texts have the same key in the same dictionary. -/
def Taking.SameKey (first second : Taking) : Prop :=
  first.keeping = second.keeping ∧ first.key = second.key

/-- A text is shared under a key that is made from it. -/
def Taking.IsSlugged (taking : Taking) : Prop :=
  taking.keeping = .shared ∧ IsSlug taking.key

variable {fixed : Agenda} {state next : Agenda × Harvest} {taking old : Taking}

/-- An explanation does not depend on more than an agenda and counts. -/
theorem Explained.mono (h : Explained vocabulary fixed state old) (hagenda : next.1 ⊆ state.1)
    (hcounts : ∀ category, state.2.counts.count category ≤ next.2.counts.count category) :
    Explained vocabulary fixed next old := by
  cases h with
  | fixed old hfixed hused => exact .fixed old hfixed fun hmem ↦ hused (hagenda hmem)
  | numbered hcategory hcount text => exact .numbered hcategory (hcount.trans (hcounts _)) text
  | slug hslug text => exact .slug hslug text
  | label hlabel => exact .label hlabel

/-- A step gives out keys and takes none back. -/
theorem Harvest.Step.counts_le (hstep : Step vocabulary state taking next) (category : Text) :
    state.2.counts.count category ≤ next.2.counts.count category := by
  cases hstep with
  | fixed agenda harvest taking => rw [add_counts]
  | numbered agenda harvest hcategory text =>
      rw [show (harvest.addNumbered _ text).2.counts = (harvest.counts.next _).2 from rfl, count_next]
      split
      · next heq =>
          rw [heq]
          exact Nat.le_succ _
      · exact le_refl _
  | header | cell | label => exact le_refl _

/-- What a step takes is explained after it. -/
theorem Harvest.Step.explained (hfixed : Agenda.Apart vocabulary fixed)
    (hsuffix : state.1 <:+ fixed) (hstep : Step vocabulary state taking next) :
    Explained vocabulary fixed next taking := by
  cases hstep with
  | fixed agenda harvest taking =>
      have hnodup := hfixed.nodup.sublist hsuffix.sublist
      exact .fixed taking (hsuffix.subset (List.mem_cons_self ..)) (List.nodup_cons.mp hnodup).1
  | numbered agenda harvest hcategory text =>
      refine .numbered hcategory ?_ text
      rw [show (harvest.addNumbered _ text).2.counts = (harvest.counts.next _).2 from rfl,
        count_next, if_pos rfl]
      rfl
  | header agenda harvest label => exact .slug (.inl (by simp [headerKey, Text.startsWith])) label
  | cell agenda harvest label => exact .slug (.inr (by simp [labelKey, Text.startsWith])) label
  | label agenda harvest hlabel => exact .label hlabel

/-- The key of a text that was taken does not come on the agenda any more. -/
theorem Explained.not_coming (hfixed : Agenda.Apart vocabulary fixed) (hsuffix : state.1 <:+ fixed)
    (h : Explained vocabulary fixed state old) : (old.keeping, old.key) ∉ state.1 := by
  intro hmem
  have hall := hsuffix.subset hmem
  cases h with
  | fixed old _ hused => exact hused hmem
  | numbered hcategory _ text => exact hfixed.numbered_apart _ hcategory _ hall
  | slug hslug text => exact hfixed.slug_apart _ hall hslug
  | label hlabel => exact hfixed.label_apart _ hlabel hall

/-- The next key of a category was not given to a text of the page before. -/
theorem Explained.ne_next (hvocabulary : vocabulary.KeepsApart)
    (hfixed : Agenda.Apart vocabulary fixed) (h : Explained vocabulary fixed state old)
    (hkeeping : old.keeping = .own) {category : Text} (hcategory : category ∈ vocabulary.categories) :
    old.key ≠ (state.2.counts.next category).1 := by
  intro hkey
  cases h with
  | fixed old hmem _ =>
      rw [hkeeping, hkey] at hmem
      exact hfixed.numbered_apart _ hcategory _ hmem
  | @numbered other hother number hcount text =>
      obtain ⟨rfl, hnumber⟩ := numbered_injective
        (hvocabulary.category_apart _ hother) (hvocabulary.category_apart _ hcategory) hkey
      exact absurd (hnumber ▸ hcount) (Nat.not_succ_le_self _)
  | slug | label => exact Keeping.noConfusion hkeeping

/-- A text of the page is taken under a key that no text of the page had before. -/
theorem Harvest.Step.fresh (hvocabulary : vocabulary.KeepsApart)
    (hfixed : Agenda.Apart vocabulary fixed) (hsuffix : state.1 <:+ fixed)
    (hold : Explained vocabulary fixed state old) (hstep : Step vocabulary state taking next)
    (hkeeping : taking.keeping = .own) : ¬ old.SameKey taking := by
  rintro ⟨hsame, hkey⟩
  cases hstep with
  | fixed agenda harvest taking =>
      refine hold.not_coming hfixed hsuffix ?_
      rw [hsame, hkey]
      exact List.mem_cons_self ..
  | numbered agenda harvest hcategory text =>
      exact hold.ne_next hvocabulary hfixed hsame hcategory hkey
  | header | cell | label => exact Keeping.noConfusion hkeeping

/-- A text taken under a key that was used before is the text taken then, or the key is made from
it. -/
theorem Harvest.Step.clash (hvocabulary : vocabulary.KeepsApart)
    (hfixed : Agenda.Apart vocabulary fixed) (hsuffix : state.1 <:+ fixed)
    (hold : Explained vocabulary fixed state old) (hstep : Step vocabulary state taking next)
    (hsame : old.SameKey taking) : old.text = taking.text ∨ taking.IsSlugged := by
  obtain ⟨hkeeping, hkey⟩ := hsame
  cases hstep with
  | fixed agenda harvest taking =>
      refine absurd ?_ (hold.not_coming hfixed hsuffix)
      rw [hkeeping, hkey]
      exact List.mem_cons_self ..
  | numbered agenda harvest hcategory text =>
      exact absurd hkey (hold.ne_next hvocabulary hfixed hkeeping hcategory)
  | header agenda harvest label =>
      exact .inr ⟨rfl, .inl (by simp [headerKey, Text.startsWith])⟩
  | cell agenda harvest label =>
      exact .inr ⟨rfl, .inr (by simp [labelKey, Text.startsWith])⟩
  | label agenda harvest hlabel =>
      cases hold with
      | fixed old hmem _ =>
          rw [hkeeping, hkey] at hmem
          exact absurd hmem (hfixed.label_apart _ hlabel)
      | numbered => exact Keeping.noConfusion hkeeping
      | slug hslug text => exact .inr ⟨rfl, hkey ▸ hslug⟩
      | label hother => exact .inl (hvocabulary.label_apart _ hother _ hlabel hkey)

/-- Every text taken is explained, and two texts have the same key only if it is made from them. -/
structure Tidy (vocabulary : Vocabulary) (fixed : Agenda) (state : Agenda × Harvest) : Prop where
  agenda_suffix : state.1 <:+ fixed
  explained : ∀ taking ∈ state.2.taken, Explained vocabulary fixed state taking
  clash : ∀ first ∈ state.2.taken, ∀ second ∈ state.2.taken, first.SameKey second →
    first.text = second.text ∨ first.IsSlugged

/-- Taking a text or passing over a fixed key keeps the harvest tidy. -/
theorem Tidy.advances (hvocabulary : vocabulary.KeepsApart) (hfixed : Agenda.Apart vocabulary fixed)
    (h : Tidy vocabulary fixed state) (hstep : Advances vocabulary state next) :
    Tidy vocabulary fixed next := by
  have hsuffix : next.1 <:+ state.1 :=
    Gathers.agenda_suffix (Relation.ReflTransGen.single hstep)
  cases hstep with
  | skip key agenda harvest =>
      exact ⟨hsuffix.trans h.agenda_suffix,
        fun old hmem ↦ (h.explained old hmem).mono hsuffix.subset fun _ ↦ le_refl _, h.clash⟩
  | @take _ _ taking hstep =>
      refine ⟨hsuffix.trans h.agenda_suffix, fun old hmem ↦ ?_, ?_⟩
      · rw [hstep.taken_eq] at hmem
        rcases List.mem_cons.mp hmem with rfl | hmem
        · exact hstep.explained hfixed h.agenda_suffix
        · exact (h.explained old hmem).mono hsuffix.subset hstep.counts_le
      · have hnew (old : Taking) (hmem : old ∈ state.2.taken) (hsame : old.SameKey taking) :
            old.text = taking.text ∨ taking.IsSlugged :=
          hstep.clash hvocabulary hfixed h.agenda_suffix (h.explained old hmem) hsame
        rw [hstep.taken_eq]
        intro first hfirst second hsecond hsame
        rcases List.mem_cons.mp hfirst with hfirst | hfirst <;>
          rcases List.mem_cons.mp hsecond with hsecond | hsecond
        · exact .inl (by rw [hfirst, hsecond])
        · rw [hfirst] at hsame ⊢
          exact (hnew second hsecond ⟨hsame.1.symm, hsame.2.symm⟩).imp_left Eq.symm
        · rw [hsecond] at hsame ⊢
          refine (hnew first hfirst hsame).imp_right fun hslugged ↦ ?_
          exact ⟨hsame.1.trans hslugged.1, hsame.2 ▸ hslugged.2⟩
        · exact h.clash first hfirst second hsecond hsame

/-- Along every sequence of steps from the empty harvest the harvest is tidy. -/
theorem Harvest.Gathers.tidy (hvocabulary : vocabulary.KeepsApart)
    (hfixed : Agenda.Apart vocabulary fixed) {scope : Text}
    (h : Gathers vocabulary (fixed, .empty scope) state) : Tidy vocabulary fixed state := by
  induction h with
  | refl => exact ⟨List.suffix_rfl, by simp [Harvest.empty], by simp [Harvest.empty]⟩
  | tail _ hstep ih => exact ih.advances hvocabulary hfixed hstep

/-- Two different texts of a page have the same key only if it is made from them. -/
theorem Run.clash {scope brand html : Text} (hvocabulary : vocabulary.KeepsApart)
    (run : Run vocabulary scope brand html) :
    ∀ first ∈ run.popped.2.taken, ∀ second ∈ run.popped.2.taken, first.SameKey second →
      first.text = second.text ∨ first.IsSlugged :=
  (run.gathers.tidy hvocabulary (run.agenda_apart hvocabulary)).clash

end Clashes

/-- The standard vocabulary keeps its keys apart. -/
theorem standard_keeps_apart : Vocabulary.standard.KeepsApart := by
  have hcategories : ∀ category ∈ Vocabulary.standard.categories,
      (category.reverse.dropWhile Char.isDigit).head? ≠ some '_' := by decide
  exact ⟨fun category hmem ↦ not_ends_in_number (hcategories category hmem), by decide, by decide⟩

/-- No key that is made from a text was given to two different texts. -/
def Harvest.SlugsUnambiguous (harvest : Harvest) : Prop :=
  ∀ first ∈ harvest.taken, ∀ second ∈ harvest.taken,
    first.IsSlugged → first.SameKey second → first.text = second.text

/-- The dictionaries of a page hold every text taken from it under its key exactly when no key of a
dictionary was given to two different texts; and with a vocabulary that keeps its keys apart, this
depends on the keys that are made from a text alone. -/
theorem extract_holds_iff {scope brand html template : Text} {vocabulary : Vocabulary}
    {harvest : Harvest}
    (hrun : extractContent? scope vocabulary brand html = some (template, harvest)) :
    ((∀ taking ∈ harvest.taken, harvest.Holds taking) ↔ harvest.Unambiguous) ∧
      (vocabulary.KeepsApart → (harvest.Unambiguous ↔ harvest.SlugsUnambiguous)) := by
  obtain ⟨run, rfl, -⟩ := exists_run hrun
  have hrecorded : Recorded run.popped.2 := (recorded_empty scope).of_gathers run.gathers
  refine ⟨hrecorded.holds_iff, fun hvocabulary ↦ ⟨fun h ↦ ?_, fun h ↦ ?_⟩⟩
  · intro first hfirst second hsecond _ hsame
    exact h first hfirst second hsecond hsame.1 hsame.2
  · intro first hfirst second hsecond hkeeping hkey
    have hsame : first.SameKey second := ⟨hkeeping, hkey⟩
    rcases run.clash hvocabulary first hfirst second hsecond hsame with htext | hslugged
    · exact htext
    · exact h first hfirst second hsecond hslugged hsame

/-- Of two prices in different currencies, one is lost. -/
theorem extract_loses_price :
    let harvest : Harvest := ⟨"home".toList, [], [], [("th_price".toList, "Price (€)".toList)],
      [⟨.shared, "th_price".toList, "Price ($)".toList⟩,
        ⟨.shared, "th_price".toList, "Price (€)".toList⟩]⟩
    extractContent? "home".toList .standard [] "<tr><th>Price (€)</th><th>Price ($)</th></tr>".toList =
        some (("<tr><th>\x7b\x7bt.shared.th_price\x7d\x7d</th>" ++
          "<th>\x7b\x7bt.shared.th_price\x7d\x7d</th></tr>").toList, harvest) ∧
      ¬ ∀ taking ∈ harvest.taken, harvest.Holds taking := by
  intro harvest
  have hrun : extractContent? "home".toList .standard []
      "<tr><th>Price (€)</th><th>Price ($)</th></tr>".toList =
        some (("<tr><th>\x7b\x7bt.shared.th_price\x7d\x7d</th>" ++
          "<th>\x7b\x7bt.shared.th_price\x7d\x7d</th></tr>").toList, harvest) := by
    decide +kernel
  refine ⟨hrun, fun hholds ↦ ?_⟩
  obtain ⟨hiff, -⟩ := extract_holds_iff hrun
  have htexts := hiff.mp hholds ⟨.shared, "th_price".toList, "Price (€)".toList⟩
    (List.mem_cons_of_mem _ (List.mem_cons_self ..))
    ⟨.shared, "th_price".toList, "Price ($)".toList⟩ (List.mem_cons_self ..) rfl rfl
  exact absurd htexts (by decide)

end LocalizedSite.Extract
