import LocalizedSite.Extract.Page
import LocalizedSite.Proofs.Entries
import Mathlib.Logic.Relation

/-!
# How a harvest grows

Extraction takes one text after another, and `Harvest.Step` lists the ways in which it does: under
the next key of a category of body texts, under the key made from a table header or a cell label,
under the key of a label of the vocabulary, or under a fixed key. The fixed keys are those of the
head, of the blocks of linked data, of the footer and of the region popup. They come in a fixed order
and each at most once, so the steps carry an agenda, the list of the fixed keys still to come.
`Recorded.of_gathers` says that along every sequence of steps the two dictionaries are what the
record of taken texts makes them, and `Recorded.holds_iff` that a text is lost exactly when another
one was taken under its key.
-/

namespace LocalizedSite.Extract

/-- The keys under which texts of the head are taken. -/
def headKeys : List Text :=
  "meta_title".toList :: metaTexts.map Prod.snd

/-- The shared keys of the places in a footer. -/
def footerKeys : List Text :=
  ["footer_tagline", "footer_disclaimer", "footer_rights"].map String.toList

/-- The shared keys of the places in the region popup. -/
def popupKeys : List Text :=
  ["region_title", "region_subtitle", "region_discount_text"].map String.toList

/-- The fixed keys that may still come, in order. -/
abbrev Agenda := List (Keeping × Text)

/-- The agenda of keys that are all kept alike. -/
def agendaOf (keeping : Keeping) (keys : List Text) : Agenda :=
  keys.map fun key ↦ (keeping, key)

namespace Vocabulary

/-- The categories of body texts. -/
def categories (vocabulary : Vocabulary) : List Text :=
  textElements ++ vocabulary.spanClasses.map (classCategory "span".toList) ++
    vocabulary.divClasses.map (classCategory "div".toList) ++ ["btn".toList] ++
    vocabulary.linkClasses.map (classCategory "link".toList)

/-- The labels that become shared texts, with their keys. -/
def labels (vocabulary : Vocabulary) : Entries Text :=
  vocabulary.navLabels ++ vocabulary.sharedButtons ++ vocabulary.footerHeadings ++
    vocabulary.footerLinks ++ vocabulary.regionNames

variable {vocabulary : Vocabulary} {cssClass : Text}

theorem element_category_mem {element : Text} (h : element ∈ textElements) :
    element ∈ vocabulary.categories := by
  simp [categories, h]

theorem button_category_mem : "btn".toList ∈ vocabulary.categories := by
  simp [categories]

theorem span_category_mem (h : cssClass ∈ vocabulary.spanClasses) :
    classCategory "span".toList cssClass ∈ vocabulary.categories := by
  simp only [categories, List.mem_append]
  exact .inl (.inl (.inl (.inr (List.mem_map_of_mem h))))

theorem div_category_mem (h : cssClass ∈ vocabulary.divClasses) :
    classCategory "div".toList cssClass ∈ vocabulary.categories := by
  simp only [categories, List.mem_append]
  exact .inl (.inl (.inr (List.mem_map_of_mem h)))

theorem link_category_mem (h : cssClass ∈ vocabulary.linkClasses) :
    classCategory "link".toList cssClass ∈ vocabulary.categories := by
  simp only [categories, List.mem_append]
  exact .inr (List.mem_map_of_mem h)

/-- A label of a button is a label of the vocabulary. -/
theorem button_label_mem {label key : Text}
    (h : Entries.get? vocabulary.sharedButtons label = some key) :
    (label, key) ∈ vocabulary.labels := by
  simp [labels, Entries.mem_of_get h]

end Vocabulary

namespace Harvest

/-- Take one text; the counts of keys are left as they are. -/
def add (harvest : Harvest) (taking : Taking) : Harvest :=
  match taking.keeping with
  | .own => (harvest.addPage taking.key taking.text).2
  | .shared => (harvest.addShared taking.key taking.text).2

/-- One text is taken from a page. -/
inductive Step (vocabulary : Vocabulary) : Agenda × Harvest → Taking → Agenda × Harvest → Prop
  /-- A text under the next fixed key. -/
  | fixed (agenda : Agenda) (harvest : Harvest) (taking : Taking) :
      Step vocabulary ((taking.keeping, taking.key) :: agenda, harvest) taking
        (agenda, harvest.add taking)
  /-- A text of the body under the next key of its category. -/
  | numbered (agenda : Agenda) (harvest : Harvest) {category : Text}
      (hcategory : category ∈ vocabulary.categories) (text : Text) :
      Step vocabulary (agenda, harvest) ⟨.own, (harvest.counts.next category).1, text⟩
        (agenda, (harvest.addNumbered category text).2)
  /-- A table header. -/
  | header (agenda : Agenda) (harvest : Harvest) (label : Text) :
      Step vocabulary (agenda, harvest) ⟨.shared, headerKey label, label⟩
        (agenda, (harvest.addShared (headerKey label) label).2)
  /-- The label of a table cell. -/
  | cell (agenda : Agenda) (harvest : Harvest) (label : Text) :
      Step vocabulary (agenda, harvest) ⟨.shared, labelKey label, label⟩
        (agenda, (harvest.addShared (labelKey label) label).2)
  /-- A label of the vocabulary. -/
  | label (agenda : Agenda) (harvest : Harvest) {label key : Text}
      (hlabel : (label, key) ∈ vocabulary.labels) :
      Step vocabulary (agenda, harvest) ⟨.shared, key, label⟩
        (agenda, (harvest.addShared key label).2)

/-- A fixed key is passed over, or a text is taken. -/
inductive Advances (vocabulary : Vocabulary) : Agenda × Harvest → Agenda × Harvest → Prop
  | skip (fixed : Keeping × Text) (agenda : Agenda) (harvest : Harvest) :
      Advances vocabulary (fixed :: agenda, harvest) (agenda, harvest)
  | take {state next : Agenda × Harvest} {taking : Taking}
      (hstep : Step vocabulary state taking next) : Advances vocabulary state next

/-- Any number of texts is taken. -/
def Gathers (vocabulary : Vocabulary) : Agenda × Harvest → Agenda × Harvest → Prop :=
  Relation.ReflTransGen (Advances vocabulary)

variable {vocabulary : Vocabulary} {harvest : Harvest} {state next : Agenda × Harvest}
  {taking : Taking}

/-- Whatever the step, the text is taken in the same way, apart from the counts. -/
theorem Step.eq_add (h : Step vocabulary state taking next) :
    next.2 = { state.2.add taking with counts := next.2.counts } := by
  cases h <;> rfl

/-- Taking a text puts it in front of the record. -/
@[simp]
theorem add_taken (harvest : Harvest) (taking : Taking) :
    (harvest.add taking).taken = taking :: harvest.taken := by
  obtain ⟨keeping, key, text⟩ := taking
  cases keeping <;> rfl

@[simp]
theorem add_scope (harvest : Harvest) (taking : Taking) :
    (harvest.add taking).scope = harvest.scope := by
  obtain ⟨keeping, key, text⟩ := taking
  cases keeping <;> rfl

@[simp]
theorem add_counts (harvest : Harvest) (taking : Taking) :
    (harvest.add taking).counts = harvest.counts := by
  obtain ⟨keeping, key, text⟩ := taking
  cases keeping <;> rfl

/-- A step records what it takes. -/
theorem Step.taken_eq (h : Step vocabulary state taking next) :
    next.2.taken = taking :: state.2.taken := by
  rw [h.eq_add]
  exact add_taken state.2 taking

/-- A step stays on its page. -/
theorem Step.scope_eq (h : Step vocabulary state taking next) : next.2.scope = state.2.scope := by
  rw [h.eq_add]
  exact add_scope state.2 taking

/-- Nothing that was taken leaves the record. -/
theorem Gathers.taken_suffix (h : Gathers vocabulary state next) :
    state.2.taken <:+ next.2.taken := by
  induction h with
  | refl => exact List.suffix_rfl
  | tail _ hstep ih =>
      cases hstep with
      | skip fixed agenda harvest => exact ih
      | take hstep =>
          rw [hstep.taken_eq]
          exact ih.trans (List.suffix_cons ..)

/-- A page keeps its scope. -/
theorem Gathers.scope_eq (h : Gathers vocabulary state next) : next.2.scope = state.2.scope := by
  induction h with
  | refl => rfl
  | tail _ hstep ih =>
      cases hstep with
      | skip fixed agenda harvest => exact ih
      | take hstep => exact hstep.scope_eq.trans ih

/-- The agenda only gets shorter. -/
theorem Gathers.agenda_suffix (h : Gathers vocabulary state next) : next.1 <:+ state.1 := by
  induction h with
  | refl => exact List.suffix_rfl
  | tail _ hstep ih =>
      refine List.IsSuffix.trans ?_ ih
      cases hstep with
      | skip fixed agenda harvest => exact List.suffix_cons ..
      | take hstep =>
          cases hstep with
          | fixed agenda harvest taking => exact List.suffix_cons ..
          | numbered | header | cell | label => exact List.suffix_rfl

/-- The fixed keys may all be passed over. -/
theorem Gathers.skip_all (agenda rest : Agenda) (harvest : Harvest) :
    Gathers vocabulary (agenda ++ rest, harvest) (rest, harvest) := by
  induction agenda with
  | nil => exact .refl
  | cons fixed agenda ih => exact Relation.ReflTransGen.head (.skip fixed _ harvest) ih

/-- What every step makes sure of for the text it takes holds for all texts taken, as long as the
fixed keys to come are as the steps need them. -/
theorem Gathers.forall_taken (h : Gathers vocabulary state next)
    (admitted : Keeping × Text → Prop) {property : Taking → Prop}
    (hagenda : ∀ fixed ∈ state.1, admitted fixed)
    (hstep : ∀ {state next : Agenda × Harvest} {taking : Taking},
      (∀ fixed ∈ state.1, admitted fixed) → Step vocabulary state taking next → property taking)
    (htaken : ∀ taking ∈ state.2.taken, property taking) :
    ∀ taking ∈ next.2.taken, property taking := by
  induction h with
  | refl => exact htaken
  | tail hsteps hadvance ih =>
      cases hadvance with
      | skip fixed agenda harvest => exact ih
      | take htake =>
          intro other hmem
          rw [htake.taken_eq] at hmem
          rcases List.mem_cons.mp hmem with rfl | hmem
          · exact hstep (fun fixed hfixed ↦
              hagenda fixed ((Gathers.agenda_suffix hsteps).subset hfixed)) htake
          · exact ih other hmem

/-- The dictionary of a harvest in which a text is kept. -/
def dictionary (harvest : Harvest) : Keeping → Entries Text
  | .own => harvest.page
  | .shared => harvest.shared

/-- The dictionary of a taken text has it under its key. -/
def Holds (harvest : Harvest) (taking : Taking) : Prop :=
  Entries.get? (harvest.dictionary taking.keeping) taking.key = some taking.text

/-- No key of a dictionary was given to two different texts. -/
def Unambiguous (harvest : Harvest) : Prop :=
  ∀ first ∈ harvest.taken, ∀ second ∈ harvest.taken,
    first.keeping = second.keeping → first.key = second.key → first.text = second.text

/-- The texts taken for one dictionary under their keys, in order. -/
def kept (harvest : Harvest) (keeping : Keeping) : List (Text × Text) :=
  (harvest.taken.reverse.filter (·.keeping = keeping)).map fun taking ↦ (taking.key, taking.text)

/-- A text is among those kept exactly when it was taken. -/
theorem mem_kept {harvest : Harvest} {keeping : Keeping} {key text : Text} :
    (key, text) ∈ harvest.kept keeping ↔ ⟨keeping, key, text⟩ ∈ harvest.taken := by
  simp only [kept, List.mem_map, List.mem_filter, List.mem_reverse, decide_eq_true_eq,
    Prod.mk.injEq]
  constructor
  · rintro ⟨taking, ⟨hmem, rfl⟩, rfl, rfl⟩
    exact hmem
  · intro hmem
    exact ⟨_, ⟨hmem, rfl⟩, rfl, rfl⟩

/-- The dictionaries are made of the record: of the page's own texts the last one taken under a key
counts, of the shared texts the first. -/
structure Recorded (harvest : Harvest) : Prop where
  page_eq : harvest.page = Entries.ofList (harvest.kept .own)
  shared_eq : harvest.shared = Entries.putAllNew [] (harvest.kept .shared)

theorem recorded_empty (scope : Text) : Recorded (.empty scope) :=
  ⟨rfl, rfl⟩

/-- Taking a text keeps the dictionaries as the record makes them. -/
theorem Recorded.add (h : Recorded harvest) (taking : Taking) : Recorded (harvest.add taking) := by
  obtain ⟨keeping, key, text⟩ := taking
  obtain ⟨hpage, hshared⟩ := h
  cases keeping with
  | own =>
      refine ⟨?_, ?_⟩
      · simp only [Harvest.add, addPage, hpage, kept, Entries.ofList, Entries.putAll]
        simp
      · simpa [Harvest.add, addPage, kept] using hshared
  | shared =>
      refine ⟨?_, ?_⟩
      · simpa [Harvest.add, addShared, kept] using hpage
      · simp only [Harvest.add, addShared, hshared, kept, Entries.putAllNew]
        simp

/-- A step keeps the dictionaries as the record makes them. -/
theorem Recorded.step (h : Recorded state.2) (hstep : Step vocabulary state taking next) :
    Recorded next.2 := by
  obtain ⟨hpage, hshared⟩ := h.add taking
  rw [hstep.eq_add]
  exact ⟨hpage, hshared⟩

/-- Along every sequence of steps the dictionaries are what the record makes them. -/
theorem Recorded.of_gathers (h : Recorded state.2) (hgathers : Gathers vocabulary state next) :
    Recorded next.2 := by
  induction hgathers with
  | refl => exact h
  | tail _ hstep ih =>
      cases hstep with
      | skip fixed agenda harvest => exact ih
      | take hstep => exact ih.step hstep

/-- Every entry of a dictionary was taken. -/
theorem Recorded.taken_of_mem (h : Recorded harvest) {keeping : Keeping} {entry : Text × Text}
    (hmem : entry ∈ harvest.dictionary keeping) :
    ⟨keeping, entry.1, entry.2⟩ ∈ harvest.taken := by
  rw [← mem_kept]
  cases keeping with
  | own =>
      rw [dictionary, h.page_eq] at hmem
      exact Entries.mem_of_list hmem
  | shared =>
      rw [dictionary, h.shared_eq] at hmem
      exact (Entries.mem_of_put_all_new hmem).resolve_left List.not_mem_nil

/-- What a dictionary has under a key was taken. -/
theorem Recorded.mem_taken (h : Recorded harvest) {keeping : Keeping} {key text : Text}
    (hget : Entries.get? (harvest.dictionary keeping) key = some text) :
    ⟨keeping, key, text⟩ ∈ harvest.taken :=
  h.taken_of_mem (Entries.mem_of_get hget)

/-- Under the key of a taken text its dictionary has some text. -/
theorem Recorded.exists_get (h : Recorded harvest) (hmem : taking ∈ harvest.taken) :
    ∃ text, Entries.get? (harvest.dictionary taking.keeping) taking.key = some text := by
  obtain ⟨keeping, key, text⟩ := taking
  have hkept : key ∈ Entries.names (harvest.kept keeping) :=
    List.mem_map.mpr ⟨(key, text), mem_kept.mpr hmem, rfl⟩
  apply Option.ne_none_iff_exists'.mp
  intro hnone
  cases keeping with
  | own =>
      simp only [dictionary, h.page_eq, Entries.ofList, Entries.get_put_all, Entries.get_nil,
        Option.or_none, Entries.get_eq_none_iff, Entries.names, List.map_reverse,
        List.mem_reverse] at hnone
      exact hnone hkept
  | shared =>
      simp only [dictionary, h.shared_eq, Entries.get_put_all_new, Entries.get_nil,
        Option.none_or, Entries.get_eq_none_iff] at hnone
      exact hnone hkept

/-- If both dictionaries are empty, no text was taken. -/
theorem Recorded.taken_eq_nil (h : Recorded harvest) (hpage : harvest.page = [])
    (hshared : harvest.shared = []) : harvest.taken = [] := by
  refine List.eq_nil_iff_forall_not_mem.mpr fun taking hmem ↦ ?_
  obtain ⟨text, hget⟩ := h.exists_get hmem
  cases hkeeping : taking.keeping <;>
    simp [hkeeping, dictionary, hpage, hshared, Entries.get_nil] at hget

/-- Every text taken is held in its dictionary exactly when no key was given to two different
texts. -/
theorem Recorded.holds_iff (h : Recorded harvest) :
    (∀ taking ∈ harvest.taken, harvest.Holds taking) ↔ harvest.Unambiguous := by
  constructor
  · intro hholds first hfirst second hsecond hkeeping hkey
    have htexts := (hholds first hfirst).symm.trans
      (show _ = some second.text by rw [hkeeping, hkey]; exact hholds second hsecond)
    exact Option.some.inj htexts
  · intro hunambiguous taking hmem
    obtain ⟨text, hget⟩ := h.exists_get hmem
    have heq : text = taking.text :=
      hunambiguous _ (h.mem_taken hget) _ hmem rfl rfl
    rw [Holds, hget, heq]

end Harvest

end LocalizedSite.Extract
