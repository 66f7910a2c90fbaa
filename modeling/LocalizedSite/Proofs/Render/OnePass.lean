import LocalizedSite.Proofs.Render.Consistency
import LocalizedSite.Proofs.Text.Weave

/-!
# A page in one pass

A page is rendered block by block, but a single pass over the whole page does the same: each reference
is looked up by itself, and only the form of its text depends on whether it stands in the content of a
block of linked data (`render_page_one_pass`).
-/

namespace LocalizedSite.Render

open Extract

/-- Where the contents of the blocks of linked data of a text begin and end. -/
def blockContents (text : Text) : List (Nat × Nat) :=
  ((Cuts.all recognizeLinkedData text).placed Slot.text).map fun block ↦
    let start := block.start + block.occurrence.opening.length
    (start, start + block.occurrence.content.length)

/-- A reference stands in the content of a block of linked data. -/
def InBlock (text : Text) (place : Placed Reference) : Prop :=
  ∃ content ∈ blockContents text, content.1 ≤ place.start ∧ place.finish ≤ content.2

instance (text : Text) (place : Placed Reference) : Decidable (InBlock text place) :=
  inferInstanceAs (Decidable (∃ _ ∈ _, _))

/-- The form in which the text of a reference is written: in a block of linked data it is escaped. -/
def formAt (text : Text) (place : Placed Reference) : Text → Text :=
  if InBlock text place then escapeInScript else id

/-- How a reference is resolved: by its text in the dictionary of the locale, or not at all; then the
source dictionary tells what is missing. -/
inductive Resolves (dictionaries : Dictionaries) (reference : Reference) : Resolution → Prop
  | resolved {text : Text} (h : dictionaries.locale.text? reference.scope reference.key = some text) :
      Resolves dictionaries reference (.resolved reference text)
  | translation {text : Text} (h : dictionaries.locale.text? reference.scope reference.key = none)
      (hsource : dictionaries.source.text? reference.scope reference.key = some text) :
      Resolves dictionaries reference (.unresolved reference .translation)
  | sourceKey (h : dictionaries.locale.text? reference.scope reference.key = none)
      (hsource : dictionaries.source.text? reference.scope reference.key = none) :
      Resolves dictionaries reference (.unresolved reference .sourceKey)

/-- Every reference is resolved so. -/
theorem resolves_resolve (dictionaries : Dictionaries) (reference : Reference) :
    Resolves dictionaries reference (dictionaries.resolve reference) := by
  unfold Dictionaries.resolve
  cases hlocale : dictionaries.locale.text? reference.scope reference.key with
  | some text => exact .resolved hlocale
  | none =>
      cases hsource : dictionaries.source.text? reference.scope reference.key with
      | some text => exact .translation hlocale hsource
      | none => exact .sourceKey hlocale hsource

/-- The first block and the blocks behind it. -/
theorem block_contents_cons {text before rest : Text} {slot : Slot}
    (h : recognizeLinkedData.first? text = some (before, slot, rest)) :
    let start := before.length + slot.opening.length
    blockContents text = (start, start + slot.content.length) ::
      (blockContents rest).map fun content ↦
        ((before ++ slot.text).length + content.1, (before ++ slot.text).length + content.2) := by
  intro start
  unfold blockContents Cuts.placed
  rw [Cuts.all_of_first_some framing_linked_data.consuming h, Cuts.placedFrom, Nat.zero_add,
    ← List.length_append, ← Nat.add_zero (before ++ slot.text).length, Cuts.placed_from_add]
  simp [start, Placed.behind, Nat.add_assoc]

/-- A place in a text with a first block is in that block or in one behind it. -/
theorem in_block_iff {text before rest : Text} {slot : Slot} {place : Placed Reference}
    (h : recognizeLinkedData.first? text = some (before, slot, rest)) :
    InBlock text place ↔
      before.length + slot.opening.length ≤ place.start ∧
          place.finish ≤ before.length + slot.opening.length + slot.content.length ∨
        ∃ content ∈ blockContents rest, (before ++ slot.text).length + content.1 ≤ place.start ∧
          place.finish ≤ (before ++ slot.text).length + content.2 := by
  unfold InBlock
  rw [block_contents_cons h]
  simp

/-- A reference stands in its text and is not empty. -/
theorem place_within {text : Text} {place : Placed Reference}
    (h : place ∈ (Cuts.all Reference.recognize text).placed Reference.text) :
    place.start < place.finish ∧ place.finish ≤ text.length := by
  obtain ⟨front, back, htext, hstart, hfinish⟩ := Cuts.exists_split_of_mem_placed _ h
  have hpositive : 0 < place.occurrence.text.length := by
    simp [Reference.text, Reference.mark, openBraces]
  have hlength := congrArg List.length htext
  rw [Reference.text_all] at hlength
  simp only [List.length_append] at hlength hfinish
  omega

/-- The text of a cut text with its references resolved, each in the form of its place. -/
def resolveAt (dictionaries : Dictionaries) (form : Placed Reference → Text → Text)
    (cuts : Cuts Reference) : Text :=
  cuts.textAt Reference.text fun place ↦ (dictionaries.resolve place.occurrence).written (form place)

section Pieces

variable {dictionaries : Dictionaries} {form other : Placed Reference → Text → Text}

/-- Two cut texts one after the other are resolved one after the other. -/
theorem resolve_at_append (first second : Cuts Reference) :
    resolveAt dictionaries form (first.append second) = resolveAt dictionaries form first ++
      resolveAt dictionaries (fun place ↦ form (place.behind (first.text Reference.text).length))
        second :=
  Cuts.text_at_append _ first second

/-- A piece is resolved the same if the forms agree at the places of its references. -/
theorem resolve_at_congr {cuts : Cuts Reference}
    (h : ∀ place ∈ cuts.placed Reference.text, form place = other place) :
    resolveAt dictionaries form cuts = resolveAt dictionaries other cuts :=
  Cuts.text_at_congr fun place hmem ↦ by rw [h place hmem]

/-- A piece in which the form is the same everywhere. -/
theorem resolve_at_eq {text : Text} {same : Text → Text}
    (h : ∀ place ∈ (Cuts.all Reference.recognize text).placed Reference.text, form place = same) :
    resolveAt dictionaries form (Cuts.all Reference.recognize text) =
      (resolveText dictionaries same text).1 := by
  show _ = (Cuts.all Reference.recognize text).text fun reference ↦
    (dictionaries.resolve reference).written same
  exact Cuts.text_at_eq fun place hmem ↦ by rw [h place hmem]

end Pieces

/-- Rendering a text block by block is resolving its references in one pass. -/
theorem render_filled_one_pass (dictionaries : Dictionaries) (text : Text) :
    (renderFilled dictionaries text).text =
      resolveAt dictionaries (formAt text) (Cuts.all Reference.recognize text) := by
  show (renderCuts dictionaries (Cuts.all recognizeLinkedData text)).text = _
  refine Cuts.all_induction framing_linked_data.consuming
    (motive := fun text cuts ↦ (renderCuts dictionaries cuts).text =
      resolveAt dictionaries (formAt text) (Cuts.all Reference.recognize text)) ?_ ?_ text
  · intro text hnone
    have hform (place : Placed Reference) : formAt text place = id := by
      have houtside : ¬ InBlock text place := by
        simp [InBlock, blockContents, Cuts.all_of_first_none hnone, Cuts.placed, Cuts.placedFrom]
      rw [formAt, if_neg houtside]
    rw [resolve_at_eq fun place _ ↦ hform place]
    rfl
  · intro text before slot rest hfirst ih
    obtain ⟨occurrence, rfl, hread, -⟩ := Recognizer.first_eq_some hfirst
    have hlength : (before ++ slot.text).length = before.length +
        (slot.opening.length + (slot.content.length + slot.closing.length)) := by
      simp [Slot.text_eq]
    -- before the block
    have hbefore : ∀ place ∈ (Cuts.all Reference.recognize before).placed Reference.text,
        formAt (before ++ occurrence) place = id := by
      intro place hmem
      obtain ⟨hnonempty, hwithin⟩ := place_within hmem
      refine if_neg fun hin ↦ ?_
      rcases (in_block_iff hfirst).mp hin with ⟨hstart, -⟩ | ⟨content, -, hstart, -⟩
      · omega
      · omega
    -- in the content of the block
    have hcontent : ∀ place ∈ (Cuts.all Reference.recognize slot.content).placed Reference.text,
        formAt (before ++ occurrence)
          ((place.behind slot.opening.length).behind before.length) = escapeInScript := by
      intro place hmem
      obtain ⟨hnonempty, hwithin⟩ := place_within hmem
      refine if_pos ((in_block_iff hfirst).mpr (.inl ?_))
      simp only [Placed.behind]
      omega
    -- behind the block
    have hrest : ∀ place ∈ (Cuts.all Reference.recognize rest).placed Reference.text,
        formAt (before ++ occurrence) ((((place.behind slot.closing.length).behind
          slot.content.length).behind slot.opening.length).behind before.length) =
            formAt rest place := by
      intro place hmem
      obtain ⟨hnonempty, -⟩ := place_within hmem
      refine if_congr ?_ rfl rfl
      rw [in_block_iff hfirst]
      simp only [Placed.behind, InBlock]
      constructor
      · rintro (⟨-, hfinish⟩ | ⟨content, hmem, hstart, hfinish⟩)
        · omega
        · exact ⟨content, hmem, by omega, by omega⟩
      · rintro ⟨content, hmem, hstart, hfinish⟩
        exact .inr ⟨content, hmem, by omega, by omega⟩
    rw [references_of_block hread before, render_cuts_cons, ih]
    simp only [resolve_at_append, Reference.text_all, Cuts.text_plain]
    rw [resolve_at_eq hbefore, resolve_at_eq hcontent, resolve_at_congr hrest]
    rfl

/-- A page is rendered as by one pass over the whole template with its structural values: every reference
in it gives one resolution, in order, by the dictionary of the locale and the source dictionary, which
is the dictionary of the locale if none is given. In place of the reference stands its text, escaped
exactly in the content of a block of linked data, or the reference itself, and everything else stays. -/
theorem render_page_one_pass (registry : Registry) (page : Page) (locale : Locale) (template : Text)
    (dictionary : Dictionary) (source : Option Dictionary) :
    let text := registry.fill page locale template
    let references := Cuts.all Reference.recognize text
    let dictionaries : Dictionaries := ⟨dictionary, source.getD dictionary⟩
    let rendering := renderPage registry page locale dictionaries template
    references.text Reference.text = text ∧
      List.Forall₂ (Resolves dictionaries) references.occurrences rendering.resolutions ∧
      rendering.text = references.weave (List.zipWith
        (fun place resolution ↦ resolution.written (formAt text place))
        (references.placed Reference.text) rendering.resolutions) := by
  intro text references dictionaries rendering
  have hresolutions : rendering.resolutions = references.occurrences.map dictionaries.resolve :=
    (render_filled_fills dictionaries text).2
  refine ⟨Reference.text_all text, ?_, ?_⟩
  · rw [hresolutions, List.forall₂_map_right_iff, List.forall₂_same]
    exact fun reference _ ↦ resolves_resolve dictionaries reference
  · have htext : rendering.text = resolveAt dictionaries (formAt text) references :=
      render_filled_one_pass dictionaries text
    rw [htext, hresolutions, ← Cuts.map_occurrence_placed Reference.text, List.map_map,
      List.zipWith_map_right, List.zipWith_self]
    rfl

end LocalizedSite.Render
