import LocalizedSite.Proofs.Extract.Clashes
import LocalizedSite.Proofs.Extract.Intact

/-!
# The numbering of a page's keys

The texts that a run takes for its page get their keys from three sources: the fixed keys of the head, the
keys of the blocks of linked data, and the numbered keys of the categories. No key is given out twice,
whichever source it comes from; the keys of a category are numbered from one in the order in which the texts
are taken, and so are the keys of each block (`page_keys_numbered`). What holds of one step is stated for
`Harvest.Step`, and of a run by induction on its steps.
-/

namespace LocalizedSite.Extract

open Harvest

section Keys

/-- The keys of the page's own texts in the order in which the texts were taken. -/
def Harvest.ownKeys (harvest : Harvest) : List Text :=
  Entries.names (harvest.kept .own)

/-- The key is one of the numbered keys of a category. -/
def KeyCounts.IsNumbered (category key : Text) : Prop :=
  ∃ number, key = KeyCounts.numbered category number

/-- The number that a key of a category must have. -/
def KeyCounts.numberBehind (category key : Text) : Nat :=
  if key = category then 1 else Text.decimalValue (key.drop (category.length + 1))

/-- A numbered key tells its number. -/
theorem number_behind_numbered (category : Text) (number : Nat) :
    KeyCounts.numberBehind category (KeyCounts.numbered category number) = number := by
  unfold KeyCounts.numberBehind KeyCounts.numbered
  by_cases hone : number = 1
  · simp [hone]
  · have hlonger : category ++ '_' :: Text.ofNat number ≠ category := by simp
    have hdrop : (category ++ '_' :: Text.ofNat number).drop (category.length + 1) =
        Text.ofNat number := by
      rw [← List.drop_drop, List.drop_left]
      rfl
    simp only [if_neg hone, if_neg hlonger, hdrop, Text.decimal_value_of_nat]

instance (category key : Text) : Decidable (KeyCounts.IsNumbered category key) :=
  decidable_of_iff (key = KeyCounts.numbered category (KeyCounts.numberBehind category key)) <| by
    constructor
    · exact fun h ↦ ⟨_, h⟩
    · rintro ⟨number, rfl⟩
      rw [number_behind_numbered]

/-- What the keys of a block of linked data begin with. -/
def blockBeginning (block : Nat) : Text :=
  "jsonld_".toList ++ Text.ofNat block ++ ['_']

/-- The key of a text in a block begins as the keys of its block do, and of no other block. -/
theorem begins_linked_data_key (block other : Nat) (field : Text) (number : Nat) :
    Text.startsWith (linkedDataKey other field number) (blockBeginning block) = true ↔
      other = block := by
  rw [Text.starts_with_iff]
  change "jsonld_".toList ++ Text.ofNat block ++ ['_'] <+:
    "jsonld_".toList ++ Text.ofNat other ++ '_' :: field ++ '_' :: Text.ofNat number ↔ other = block
  generalize "jsonld_".toList = front
  constructor
  · rintro ⟨rest, hrest⟩
    simp only [List.append_assoc, List.append_cancel_left_eq, List.cons_append] at hrest
    exact (Text.of_nat_append_inj (by decide) hrest).1.symm
  · rintro rfl
    exact ⟨field ++ '_' :: Text.ofNat number, by simp⟩

/-- A key that begins as the keys of a block do has their first character. -/
theorem head_of_begins {key : Text} {block : Nat}
    (h : Text.startsWith key (blockBeginning block) = true) : key.head? = some 'j' := by
  obtain ⟨rest, rfl⟩ := Text.starts_with_iff.mp h
  rfl

/-- The next key of a category is numbered, and is no numbered key of another one. -/
theorem is_numbered_next_iff {category other : Text} (hcategory : ¬ EndsInNumber category)
    (hother : ¬ EndsInNumber other) (counts : KeyCounts) :
    KeyCounts.IsNumbered category (counts.next other).1 ↔ category = other := by
  constructor
  · rintro ⟨number, hkey⟩
    exact (numbered_injective hother hcategory hkey).1.symm
  · rintro rfl
    exact ⟨_, rfl⟩

end Keys

section Steps

variable {vocabulary : Vocabulary} {fixed : Agenda} {state next : Agenda × Harvest} {taking : Taking}

/-- A step adds the key of the text it takes, if the text is one of the page. -/
theorem Harvest.Step.own_keys (h : Step vocabulary state taking next) :
    next.2.ownKeys = state.2.ownKeys ++ if taking.keeping = .own then [taking.key] else [] := by
  simp only [Harvest.ownKeys, Entries.names, kept, h.taken_eq, List.reverse_cons, List.filter_append,
    List.map_append]
  by_cases hown : taking.keeping = .own <;> simp [hown]

/-- The numbered keys of each category were given out from one on, in order. -/
def Harvest.IsNumbered (vocabulary : Vocabulary) (harvest : Harvest) : Prop :=
  ∀ category ∈ vocabulary.categories,
    harvest.ownKeys.filter (KeyCounts.IsNumbered category ·) =
      (List.range' 1 (harvest.counts.count category)).map (KeyCounts.numbered category)

/-- A step keeps the numbering of every category. -/
theorem Harvest.IsNumbered.step (hvocabulary : vocabulary.KeepsApart)
    (hfixed : Agenda.Apart vocabulary fixed) (hsuffix : state.1 <:+ fixed)
    (h : state.2.IsNumbered vocabulary) (hstep : Step vocabulary state taking next) :
    next.2.IsNumbered vocabulary := by
  intro category hcategory
  rw [hstep.own_keys, List.filter_append, h category hcategory]
  cases hstep with
  | fixed agenda harvest taking =>
      have hother : taking.keeping = .own → ¬ KeyCounts.IsNumbered category taking.key := by
        rintro hown ⟨number, hkey⟩
        refine hfixed.numbered_apart category hcategory number (hsuffix.subset ?_)
        rw [hown, hkey]
        exact List.mem_cons_self ..
      rw [add_counts]
      split
      · next hown => simp [hother hown]
      · simp
  | @numbered agenda harvest other hother text =>
      have hcounts : (harvest.addNumbered other text).2.counts = (harvest.counts.next other).2 := rfl
      have hnumbered := is_numbered_next_iff (hvocabulary.category_apart _ hcategory)
        (hvocabulary.category_apart _ hother) harvest.counts
      rw [if_pos rfl, hcounts, count_next]
      by_cases hsame : category = other
      · subst hsame
        have hnext : (harvest.counts.next category).1 =
            KeyCounts.numbered category (1 + harvest.counts.count category) := by
          rw [Nat.add_comm]
          rfl
        rw [hnext] at hnumbered
        simp [List.range'_concat, hnumbered, hnext]
      · simp [hnumbered, hsame]
  | header | cell | label =>
      simp only [reduceCtorEq, if_false, List.filter_nil, List.append_nil]
      rfl

/-- What is gathered along a sequence of steps from the empty harvest is numbered. -/
theorem Harvest.Gathers.is_numbered (hvocabulary : vocabulary.KeepsApart)
    (hfixed : Agenda.Apart vocabulary fixed) {scope : Text}
    (h : Gathers vocabulary (fixed, .empty scope) state) : state.2.IsNumbered vocabulary := by
  induction h with
  | refl => exact fun category _ ↦ rfl
  | tail hsteps hadvance ih =>
      cases hadvance with
      | skip key agenda harvest => exact ih
      | take hstep => exact ih.step hvocabulary hfixed (Gathers.agenda_suffix hsteps) hstep

/-- No key of the page is given out twice along a sequence of steps from the empty harvest. -/
theorem Harvest.Gathers.own_keys_nodup (hvocabulary : vocabulary.KeepsApart)
    (hfixed : Agenda.Apart vocabulary fixed) {scope : Text}
    (h : Gathers vocabulary (fixed, .empty scope) state) : state.2.ownKeys.Nodup := by
  induction h with
  | refl => exact List.nodup_nil
  | @tail middle _ hsteps hadvance ih =>
      have htidy := Gathers.tidy hvocabulary hfixed hsteps
      cases hadvance with
      | skip key agenda harvest => exact ih
      | @take _ _ taking hstep =>
          rw [hstep.own_keys]
          split
          · next hown =>
              refine List.nodup_append.mpr ⟨ih, List.nodup_singleton _, ?_⟩
              rintro key hmem other hother rfl
              obtain rfl := List.mem_singleton.mp hother
              obtain ⟨⟨_, text⟩, hkept, rfl⟩ := List.mem_map.mp hmem
              have hold := mem_kept.mp hkept
              exact hstep.fresh hvocabulary hfixed htidy.agenda_suffix (htidy.explained _ hold) hown
                ⟨hown.symm, rfl⟩
          · rwa [List.append_nil]

/-- No key of the page comes twice, the keys of each category are numbered, and the dictionary of the page has
exactly what was taken under them. -/
structure Harvest.IsKept (vocabulary : Vocabulary) (harvest : Harvest) : Prop where
  nodup : harvest.ownKeys.Nodup
  numbered : harvest.IsNumbered vocabulary
  page_eq : harvest.page = harvest.kept .own

/-- What is gathered along a sequence of steps from the empty harvest is kept. -/
theorem Harvest.Gathers.is_kept (hvocabulary : vocabulary.KeepsApart)
    (hfixed : Agenda.Apart vocabulary fixed) {scope : Text} {agenda : Agenda} {harvest : Harvest}
    (h : Gathers vocabulary (fixed, .empty scope) (agenda, harvest)) : harvest.IsKept vocabulary := by
  have hnodup : harvest.ownKeys.Nodup := h.own_keys_nodup hvocabulary hfixed
  have hrecorded : Recorded harvest := (recorded_empty scope).of_gathers h
  exact ⟨hnodup, h.is_numbered hvocabulary hfixed, hrecorded.page_eq.trans (Entries.of_list_eq hnodup)⟩

/-- The key of a text of the page was on the agenda, or it is numbered. -/
theorem Harvest.Step.own_key (h : Step vocabulary state taking next) (hown : taking.keeping = .own) :
    (.own, taking.key) ∈ state.1 ∨
      ∃ category ∈ vocabulary.categories, KeyCounts.IsNumbered category taking.key := by
  cases h with
  | fixed agenda harvest taking =>
      rw [← hown]
      exact .inl (List.mem_cons_self ..)
  | numbered agenda harvest hcategory text => exact .inr ⟨_, hcategory, _, rfl⟩
  | header | cell | label => exact Keeping.noConfusion hown

/-- Along a sequence of steps keys of the page are added that were on the agenda, or are numbered. -/
theorem Harvest.Gathers.own_keys (h : Gathers vocabulary state next) :
    ∃ added, next.2.ownKeys = state.2.ownKeys ++ added ∧ ∀ key ∈ added,
      (.own, key) ∈ state.1 ∨
        ∃ category ∈ vocabulary.categories, KeyCounts.IsNumbered category key := by
  induction h with
  | refl => exact ⟨[], by simp, by simp⟩
  | @tail middle _ hsteps hadvance ih =>
      obtain ⟨added, hadded, hkeys⟩ := ih
      cases hadvance with
      | skip key agenda harvest => exact ⟨added, hadded, hkeys⟩
      | @take _ _ taking hstep =>
          refine ⟨_, by rw [hstep.own_keys, hadded, List.append_assoc], fun key hmem ↦ ?_⟩
          rcases List.mem_append.mp hmem with hmem | hmem
          · exact hkeys key hmem
          · split at hmem
            · next hown =>
                obtain rfl := List.mem_singleton.mp hmem
                exact (hstep.own_key hown).imp_left ((Gathers.agenda_suffix hsteps).subset ·)
            · exact absurd hmem List.not_mem_nil

end Steps

section Blocks

/-- The texts that are taken from a block have the keys of the block, for some of the fields that hold text. -/
theorem new_texts_keys (scope : Text) (number : Nat) (content : Text) :
    ∃ fields, (∀ field ∈ fields, field ∈ textFields) ∧
      Entries.names (newTexts scope number content) = blockKeys number fields := by
  unfold newTexts
  cases Json.parse content with
  | error fault => exact ⟨[], by simp, rfl⟩
  | ok value =>
      have hstart : (startKeys number).IsKeyed number := ⟨[], rfl, rfl, by simp, rfl⟩
      obtain ⟨fields, hkeyed⟩ := template_value_keyed scope hstart value
      exact ⟨fields, hkeyed.fields_known, hkeyed.keys_eq⟩

/-- Of the keys of a block, all begin as its keys do, and none as those of another block. -/
theorem filter_block_keys (block other : Nat) (fields : List Text) :
    (blockKeys other fields).filter (Text.startsWith · (blockBeginning block)) =
      if other = block then blockKeys other fields else [] := by
  split
  · next hsame =>
      refine List.filter_eq_self.mpr fun key hmem ↦ ?_
      obtain ⟨field, -, number, rfl⟩ := mem_block_keys hmem
      exact (begins_linked_data_key block other field number).mpr hsame
  · next hother =>
      refine List.filter_eq_nil_iff.mpr fun key hmem hbegins ↦ ?_
      obtain ⟨field, -, number, rfl⟩ := mem_block_keys hmem
      exact hother ((begins_linked_data_key block other field number).mp hbegins)

/-- Of the keys under which the texts of a block are taken, all begin as its keys do, and none as those of
another block. -/
theorem filter_new_texts (scope : Text) (block other : Nat) (content : Text) :
    (Entries.names (newTexts scope other content)).filter (Text.startsWith · (blockBeginning block)) =
      if other = block then Entries.names (newTexts scope other content) else [] := by
  obtain ⟨fields, -, hkeys⟩ := new_texts_keys scope other content
  rw [hkeys, filter_block_keys]

/-- The keys under which the texts of all blocks are taken, block by block. -/
theorem names_all_texts (scope : Text) (cuts : Cuts Slot) :
    Entries.names (allTexts scope cuts) = (cuts.occurrences.zipIdx 1).flatMap fun block ↦
      Entries.names (newTexts scope block.2 block.1.content) := by
  simp only [Entries.names, allTexts, Cuts.occurrences, List.map_flatMap, List.zipIdx_map,
    List.flatMap_map, Prod.map]
  rfl

/-- Of the keys under which the texts of all blocks are taken, those of one block begin as its keys do. -/
theorem filter_all_texts (scope : Text) {cuts : Cuts Slot} {slot : Slot} {number : Nat}
    (h : (slot, number) ∈ cuts.occurrences.zipIdx 1) :
    (Entries.names (allTexts scope cuts)).filter (Text.startsWith · (blockBeginning number)) =
      Entries.names (newTexts scope number slot.content) := by
  have hnone (others : List (Slot × Nat)) (hothers : ∀ block ∈ others, block.2 ≠ number) :
      (others.flatMap fun block ↦ Entries.names (newTexts scope block.2 block.1.content)).filter
        (Text.startsWith · (blockBeginning number)) = [] := by
    rw [List.filter_flatMap, List.flatMap_eq_nil_iff]
    intro block hmem
    rw [filter_new_texts, if_neg (hothers block hmem)]
  -- The block stands between others, and their numbers are all different.
  obtain ⟨front, back, happend⟩ := List.append_of_mem h
  have hnumbers := pairwise_number_ne cuts.occurrences 1
  rw [happend, List.pairwise_append, List.pairwise_cons] at hnumbers
  obtain ⟨-, ⟨hback, -⟩, hfront⟩ := hnumbers
  have hfront_none := hnone front fun block hmem ↦ hfront block hmem _ (List.mem_cons_self ..)
  have hback_none := hnone back fun block hmem ↦ (hback block hmem).symm
  rw [names_all_texts, happend, List.flatMap_append, List.flatMap_cons, List.filter_append,
    List.filter_append, hfront_none, hback_none, filter_new_texts, if_pos rfl, List.nil_append,
    List.append_nil]

end Blocks

section Runs

/-- The document and the harvest after the texts of the head, with the structural placeholders of the head
in the document. -/
def headDraft (scope html : Text) : Draft :=
  ((fillHead (headTexts (.empty scope) html).1), (headTexts (.empty scope) html).2)

/-- The document and the harvest after the structured data. -/
def linkedDraft (scope html : Text) : Draft :=
  linkedDataTexts (headDraft scope html).2 (headDraft scope html).1

/-- What the run over a document gathers. If the document is rejected, that happens before the texts of
the body are taken, and what was gathered so far stands. -/
def contentGathered (scope : Text) (vocabulary : Vocabulary) (brand html : Text) : Harvest :=
  let (html, harvest) := linkedDraft scope html
  let (html, harvest) := navigation vocabulary.navLabels harvest html
  match bodyTexts? vocabulary harvest html with
  | none => harvest
  | some (html, harvest) =>
    let (html, harvest) := footer vocabulary brand harvest html
    (regionPopup vocabulary harvest html).2

/-- What the run over a page gathers: nothing if the page only redirects. -/
def gathered (page : Page) (vocabulary : Vocabulary) (brand html : Text) : Harvest :=
  match page.redirectTo with
  | some _ => .empty page.key
  | none => contentGathered page.key vocabulary brand html

/-- The blocks of linked data that the run over a page meets, malformed ones among them. -/
def linkedBlocks (page : Page) (html : Text) : List Slot :=
  match page.redirectTo with
  | some _ => []
  | none => (Cuts.all recognizeLinkedData (headDraft page.key html).1).occurrences

variable {vocabulary : Vocabulary}

/-- The texts of the head are taken in small steps over the keys of the head. -/
theorem head_draft_gathers (vocabulary : Vocabulary) (scope html : Text) (rest : Agenda) :
    Gathers vocabulary (agendaOf .own headKeys ++ rest, .empty scope)
      (rest, (headDraft scope html).2) := by
  have hhead : Rewriting vocabulary _ _ := head_texts_rewrites rest (.empty scope) html
  unfold headDraft
  exact hhead.gathers

/-- The texts of the head are taken in the scope of the page. -/
theorem head_draft_scope (scope html : Text) : (headDraft scope html).2.scope = scope :=
  (head_draft_gathers .standard scope html []).scope_eq

/-- Taking texts of the page one after the other adds their keys. -/
theorem own_keys_add_pages (texts : List (Text × Text)) (harvest : Harvest) :
    (texts.foldl (fun harvest (key, text) ↦ (harvest.addPage key text).2) harvest).ownKeys =
      harvest.ownKeys ++ Entries.names texts := by
  induction texts generalizing harvest with
  | nil => simp [Entries.names]
  | cons entry texts ih =>
      rw [List.foldl_cons, ih]
      simp [Harvest.ownKeys, Entries.names, kept, addPage]

/-- Taking the texts of structured data adds the keys of its blocks. -/
theorem linked_draft_own_keys (scope html : Text) :
    (linkedDraft scope html).2.ownKeys = (headDraft scope html).2.ownKeys ++
      Entries.names (allTexts scope (Cuts.all recognizeLinkedData (headDraft scope html).1)) := by
  have hscan := scan_linked_data_blocks scope (headDraft scope html).1
  simp only [linkedDraft, linkedDataTexts, head_draft_scope, hscan, own_keys_add_pages]

/-- The texts of structured data are taken in small steps over the keys of its blocks. -/
theorem linked_draft_gathers (vocabulary : Vocabulary) (scope html : Text) (rest : Agenda) :
    ∃ blocks, Gathers vocabulary
      (agendaOf .own (headKeys ++ linkedDataKeys blocks) ++ rest, .empty scope)
      (rest, (linkedDraft scope html).2) := by
  obtain ⟨blocks, -, hkeys⟩ := scan_linked_data_keys scope (headDraft scope html).1
  have hlinked : Gathers vocabulary _ _ :=
    linked_data_texts_gathers rest (headDraft scope html).2 (headDraft scope html).1
  rw [head_draft_scope, hkeys] at hlinked
  refine ⟨blocks, ?_⟩
  simp only [agendaOf, List.map_append, List.append_assoc]
  exact (head_draft_gathers vocabulary scope html _).trans hlinked

/-- After the structured data the harvest only grows, over the keys of the places. -/
theorem content_gathered_gathers (vocabulary : Vocabulary) (scope brand html : Text) :
    Gathers vocabulary (Run.placeAgenda, (linkedDraft scope html).2)
      ([], contentGathered scope vocabulary brand html) := by
  have hnavigation : Gathers vocabulary _ _ :=
    navigation_gathers Run.placeAgenda (linkedDraft scope html).2 (linkedDraft scope html).1
  refine hnavigation.trans ?_
  simp only [contentGathered]
  generalize hnavigated : navigation vocabulary.navLabels _ _ = navigated
  cases hbody : bodyTexts? vocabulary navigated.2 navigated.1 with
  | none =>
      rw [← List.append_nil Run.placeAgenda]
      exact Gathers.skip_all _ [] _
  | some body =>
      have hlinked : linkedDataTexts (headTexts (.empty scope) html).2
          (fillHead (headTexts (.empty scope) html).1) = linkedDraft scope html := by
        simp only [linkedDraft, headDraft]
      let run : Run vocabulary scope brand html :=
        { headed := headTexts (.empty scope) html, linked := linkedDraft scope html
          navigated, body, headed_eq := rfl, linked_eq := hlinked
          navigated_eq := hnavigated, body_eq := hbody }
      exact run.navigated_gathers

/-- What an extraction that returns has gathered. -/
theorem content_gathered_eq {scope brand html template : Text} {harvest : Harvest}
    (h : extractContent? scope vocabulary brand html = some (template, harvest)) :
    contentGathered scope vocabulary brand html = harvest := by
  simp only [extractContent?, bind, Option.bind_eq_some_iff] at h
  obtain ⟨body, hbody, h⟩ := h
  obtain ⟨-, rfl⟩ := Prod.mk.inj (Option.some.inj h)
  simp only [contentGathered, linkedDraft, headDraft, hbody]

/-- Along a whole run the harvest only grows from the empty one, over keys that are apart from all others. -/
theorem exists_gathers (hvocabulary : vocabulary.KeepsApart) (scope brand html : Text) :
    ∃ fixed, Agenda.Apart vocabulary fixed ∧
      Gathers vocabulary (fixed, .empty scope) ([], contentGathered scope vocabulary brand html) := by
  obtain ⟨blocks, hlinked⟩ := linked_draft_gathers vocabulary scope html Run.placeAgenda
  exact ⟨_, agenda_apart hvocabulary blocks, hlinked.trans (content_gathered_gathers vocabulary scope brand html)⟩

/-- Steps over keys of the head alone add no key that begins as the keys of a block do. -/
theorem Harvest.Gathers.filter_begins {state next : Agenda × Harvest} (h : Gathers vocabulary state next)
    (hagenda : ∀ key, (.own, key) ∈ state.1 → key ∈ headKeys) (block : Nat) :
    next.2.ownKeys.filter (Text.startsWith · (blockBeginning block)) =
      state.2.ownKeys.filter (Text.startsWith · (blockBeginning block)) := by
  have hheads : ∀ key ∈ headKeys, key.head? ≠ some 'j' := by decide
  obtain ⟨added, hadded, hkeys⟩ := h.own_keys
  have hnone : added.filter (Text.startsWith · (blockBeginning block)) = [] := by
    refine List.filter_eq_nil_iff.mpr fun key hmem hbegins ↦ ?_
    have hhead := head_of_begins hbegins
    rcases hkeys key hmem with hfixed | ⟨category, hcategory, number, rfl⟩
    · exact hheads key (hagenda key hfixed) hhead
    · obtain ⟨initial, hinitial, heq⟩ := category_head hcategory number
      obtain rfl := Option.some.inj (heq.symm.trans hhead)
      exact absurd hinitial (by decide)
  rw [hadded, List.filter_append, hnone, List.append_nil]

/-- The keys that begin as the keys of a block are those under which the texts of the block were taken. -/
theorem filter_content_gathered (scope brand html : Text) {slot : Slot} {number : Nat}
    (h : (slot, number) ∈
      (Cuts.all recognizeLinkedData (headDraft scope html).1).occurrences.zipIdx 1) :
    (contentGathered scope vocabulary brand html).ownKeys.filter
        (Text.startsWith · (blockBeginning number)) =
      Entries.names (newTexts scope number slot.content) := by
  have hempty : (Harvest.empty scope).ownKeys = [] := rfl
  have hhead := (head_draft_gathers vocabulary scope html []).filter_begins
    (by simp [agendaOf]) number
  have hplaces := (content_gathered_gathers vocabulary scope brand html).filter_begins
    (by simp [Run.placeAgenda, agendaOf]) number
  rw [hempty, List.filter_nil] at hhead
  rw [hplaces, linked_draft_own_keys, List.filter_append, hhead, filter_all_texts scope h, List.nil_append]

/-- No key of a page is given out twice. The keys of every category are numbered from one on, as often as the
category was counted, and the keys of every block of linked data are numbered from one on behind the number of
the block, where blocks that are no JSON count; both stand in the order in which the texts were taken. The
texts that an extraction returns are exactly those under these keys. -/
theorem page_keys_numbered (page : Page) (brand html : Text) :
    let harvest := gathered page .standard brand html
    harvest.ownKeys.Nodup ∧ harvest.IsNumbered .standard ∧
      (∀ slot number, (slot, number) ∈ (linkedBlocks page html).zipIdx 1 →
        ∃ fields, (∀ field ∈ fields, field ∈ textFields) ∧
          Entries.names (newTexts page.key number slot.content) = blockKeys number fields ∧
          harvest.ownKeys.filter (Text.startsWith · (blockBeginning number)) =
            blockKeys number fields) ∧
      ∀ extraction, extractPage? page .standard brand html = some extraction →
        extraction.page = harvest.kept .own := by
  intro harvest
  cases hredirect : page.redirectTo with
  | some target =>
      have hempty : harvest = .empty page.key := by simp only [harvest, gathered, hredirect]
      have hblocks : linkedBlocks page html = [] := by simp only [linkedBlocks, hredirect]
      rw [hempty, hblocks]
      refine ⟨List.nodup_nil, fun category _ ↦ rfl, by simp, fun extraction hextract ↦ ?_⟩
      simp only [extractPage?, hredirect, Option.some.injEq] at hextract
      rw [← hextract]
      rfl
  | none =>
      have hharvest : harvest = contentGathered page.key .standard brand html := by
        simp only [harvest, gathered, hredirect]
      have hblocks : linkedBlocks page html =
          (Cuts.all recognizeLinkedData (headDraft page.key html).1).occurrences := by
        simp only [linkedBlocks, hredirect]
      obtain ⟨fixed, hfixed, hgathers⟩ := exists_gathers standard_keeps_apart page.key brand html
      obtain ⟨hnodup, hnumbered, hpage⟩ := hgathers.is_kept standard_keeps_apart hfixed
      rw [hharvest, hblocks]
      refine ⟨hnodup, hnumbered, fun slot number hmem ↦ ?_, fun extraction hextract ↦ ?_⟩
      · obtain ⟨fields, hfields, hkeys⟩ := new_texts_keys page.key number slot.content
        refine ⟨fields, hfields, hkeys, ?_⟩
        rw [filter_content_gathered page.key brand html hmem, hkeys]
      · simp only [extractPage?, hredirect, Option.map_eq_some_iff] at hextract
        obtain ⟨⟨template, found⟩, hcontent, hextract⟩ := hextract
        rw [← hextract, ← content_gathered_eq hcontent, hpage]

/-- A page with a block that is no JSON, a block with two texts and two headings. -/
theorem page_keys_numbered_product :
    let page : Page := ⟨"home".toList, "index.html".toList, "index.html".toList, none⟩
    let content := "\x7b\"name\": \"A long product name\", \"text\": \"A long product text\"\x7d".toList
    let html := ("<script type=\"application/ld+json\">\x7b</script>\n" ++
      "<script type=\"application/ld+json\">").toList ++ content ++
      "</script>\n<h2>One</h2>\n<h2>Two</h2>".toList
    let block : Slot := ⟨"<script type=\"application/ld+json\">".toList, content, "</script>".toList⟩
    let texts : Entries Text := [("jsonld_2_name_1".toList, "A long product name".toList),
      ("jsonld_2_text_2".toList, "A long product text".toList), ("h2".toList, "One".toList),
      ("h2_2".toList, "Two".toList)]
    let harvest := gathered page .standard [] html
    (block, 2) ∈ (linkedBlocks page html).zipIdx 1 ∧
      (extractPage? page .standard [] html).map Extraction.page = some texts ∧
      harvest.ownKeys.Nodup ∧ harvest.IsNumbered .standard ∧
      (∃ fields, (∀ field ∈ fields, field ∈ textFields) ∧
        Entries.names (newTexts page.key 2 block.content) = blockKeys 2 fields ∧
        harvest.ownKeys.filter (Text.startsWith · (blockBeginning 2)) = blockKeys 2 fields) ∧
      texts = harvest.kept .own := by
  intro page content html block texts harvest
  have hblock : (block, 2) ∈ (linkedBlocks page html).zipIdx 1 := by decide +kernel
  have htexts : (extractPage? page .standard [] html).map Extraction.page = some texts := by
    decide +kernel
  obtain ⟨extraction, hextract, hpage⟩ := Option.map_eq_some_iff.mp htexts
  obtain ⟨hnodup, hnumbered, hblocks, hkept⟩ := page_keys_numbered page [] html
  exact ⟨hblock, htexts, hnodup, hnumbered, hblocks block 2 hblock,
    hpage.symm.trans (hkept extraction hextract)⟩

end Runs

end LocalizedSite.Extract
