import LocalizedSite.Proofs.Extract.Framing
import LocalizedSite.Proofs.Extract.RoundTrip
import LocalizedSite.Proofs.Placeholder.Grammar
import LocalizedSite.Proofs.Render.Blocks

/-!
# One structure in every locale

A template in which all opening braces begin a placeholder is cut into literal pieces by its
placeholders. In every locale the rendered page has the same pieces in the same order, and a value
in place of each placeholder (`render_page_fills`), so that two locales differ in these values only
(`render_page_consistent`).
-/

namespace LocalizedSite

namespace Render

open Extract

/-- What is written for a reference: its text in the dictionary of the locale, as it is or in the form
for scripts, or the reference itself if it has none. -/
inductive IsWritten (dictionaries : Dictionaries) (reference : Reference) : Text → Prop
  | plain {text : Text} (h : dictionaries.locale.text? reference.scope reference.key = some text) :
      IsWritten dictionaries reference text
  | escaped {text : Text} (h : dictionaries.locale.text? reference.scope reference.key = some text) :
      IsWritten dictionaries reference (escapeInScript text)
  | unresolved (h : dictionaries.locale.text? reference.scope reference.key = none) :
      IsWritten dictionaries reference reference.text

/-- What is written in place of a placeholder: the value of the locale, or what is written for the
reference. -/
inductive IsValue (registry : Registry) (page : Page) (locale : Locale)
    (dictionaries : Dictionaries) : Placeholder → Text → Prop
  | structural (value : Structural) :
      IsValue registry page locale dictionaries (.structural value) (registry.value page locale value)
  | reference {reference : Reference} {text : Text} (h : IsWritten dictionaries reference text) :
      IsValue registry page locale dictionaries (.reference reference) text

/-- The reference that was resolved. -/
def Resolution.reference : Resolution → Reference
  | .resolved reference _ => reference
  | .unresolved reference _ => reference

/-- A resolution is that of its reference. -/
@[simp]
theorem reference_resolve (dictionaries : Dictionaries) (reference : Reference) :
    (dictionaries.resolve reference).reference = reference := by
  unfold Dictionaries.resolve
  split
  · rfl
  · split
    · rfl
    · rfl

/-- A text with its references resolved in one form. -/
theorem resolve_text_fills (dictionaries : Dictionaries) {form : Text → Text}
    (hform : form = id ∨ form = escapeInScript) (text : Text) :
    (Cuts.all Reference.recognize text).Fills (IsWritten dictionaries)
      (resolveText dictionaries form text).1 := by
  simp only [resolveText]
  refine Cuts.Fills.text fun reference _ ↦ ?_
  unfold Dictionaries.resolve
  cases htext : dictionaries.locale.text? reference.scope reference.key with
  | some found =>
      rcases hform with rfl | rfl
      · exact .plain htext
      · exact .escaped htext
  | none =>
      simp only
      split
      · exact .unresolved htext
      · exact .unresolved htext

/-- A block of linked data stands between angle brackets, which no reference crosses. -/
theorem references_of_block {slot : Slot} {text rest : Text}
    (h : recognizeLinkedData text = some (slot, rest)) (before : Text) :
    Cuts.all Reference.recognize (before ++ text) =
      (Cuts.all Reference.recognize before).append ((Cuts.plain slot.opening).append
        ((Cuts.all Reference.recognize slot.content).append ((Cuts.plain slot.closing).append
          (Cuts.all Reference.recognize rest)))) := by
  obtain ⟨hopening, hclosing, htext⟩ := Slot.between_eq_some h
  have hleft : Reference.isForeign '<' = true := by decide
  have hright : Reference.isForeign '>' = true := by decide
  have hbegins : slot.opening = '<' :: "script type=\"application/ld+json\">".toList := hopening
  have hends : slot.opening = "<script type=\"application/ld+json\"".toList ++ ['>'] := hopening
  have hcloses : slot.closing = '<' :: "/script>".toList := hclosing
  have hlast : slot.closing = "</script".toList ++ ['>'] := hclosing
  have hbefore :
      ¬ Reference.Straddles before (slot.opening ++ (slot.content ++ (slot.closing ++ rest))) := by
    rw [hbegins]
    exact Reference.not_straddles_of_head hleft _ _
  have hopened : ¬ Reference.Straddles slot.opening (slot.content ++ (slot.closing ++ rest)) := by
    rw [hends]
    exact Reference.not_straddles_of_last hright _ _
  have hcontent : ¬ Reference.Straddles slot.content (slot.closing ++ rest) := by
    rw [hcloses]
    exact Reference.not_straddles_of_head hleft _ _
  have hclosed : ¬ Reference.Straddles slot.closing rest := by
    rw [hlast]
    exact Reference.not_straddles_of_last hright _ _
  have hplain : Cuts.all Reference.recognize slot.opening = .plain slot.opening :=
    Reference.all_of_not_mem (by rw [hopening]; decide)
  have hplainClosing : Cuts.all Reference.recognize slot.closing = .plain slot.closing :=
    Reference.all_of_not_mem (by rw [hclosing]; decide)
  have hwhole : before ++ text =
      before ++ (slot.opening ++ (slot.content ++ (slot.closing ++ rest))) := by
    rw [htext, Slot.text_eq]
    simp
  rw [hwhole, Reference.all_append hbefore, Reference.all_append hopened,
    Reference.all_append hcontent, Reference.all_append hclosed, hplain, hplainClosing]

/-- The references of a text are resolved in order, and everything else stays, whatever the blocks of
linked data in it are. -/
theorem render_filled_fills (dictionaries : Dictionaries) (text : Text) :
    (Cuts.all Reference.recognize text).Fills (IsWritten dictionaries)
        (renderFilled dictionaries text).text ∧
      (renderFilled dictionaries text).resolutions =
        (Reference.all text).map dictionaries.resolve := by
  show (Cuts.all Reference.recognize text).Fills (IsWritten dictionaries)
      (renderCuts dictionaries (Cuts.all recognizeLinkedData text)).text ∧
    (renderCuts dictionaries (Cuts.all recognizeLinkedData text)).resolutions = _
  refine Cuts.all_induction framing_linked_data.consuming
    (motive := fun text cuts ↦ (Cuts.all Reference.recognize text).Fills (IsWritten dictionaries)
        (renderCuts dictionaries cuts).text ∧
      (renderCuts dictionaries cuts).resolutions = (Reference.all text).map dictionaries.resolve)
    (fun text _ ↦ ⟨resolve_text_fills dictionaries (.inl rfl) text, rfl⟩) ?_ text
  rintro _ before slot rest hfirst ⟨hfills, hresolutions⟩
  obtain ⟨occurrence, rfl, hread, -⟩ := Recognizer.first_eq_some hfirst
  rw [references_of_block hread before, render_cuts_cons]
  constructor
  · exact Cuts.fills_append_iff.mpr ⟨_, _, resolve_text_fills dictionaries (.inl rfl) before,
      Cuts.fills_append_iff.mpr ⟨_, _, Cuts.fills_plain_iff.mpr rfl, Cuts.fills_append_iff.mpr
        ⟨_, _, resolve_text_fills dictionaries (.inr rfl) slot.content, Cuts.fills_append_iff.mpr
          ⟨_, _, Cuts.fills_plain_iff.mpr rfl, hfills, rfl⟩, rfl⟩, rfl⟩, rfl⟩
  · rw [Reference.all, references_of_block hread before, hresolutions]
    simp [resolveText, Reference.all]

section Template

variable {registry : Registry} {page : Page} {template : Text}

/-- Filling in the structural values keeps the references and the literal pieces of a complete
template. -/
theorem fill_fills {locale : Locale} (dictionaries : Dictionaries)
    (hcomplete : Placeholder.Complete template)
    (hvalues : ∀ value, '\x7b' ∉ registry.value page locale value) :
    (∀ text, (Cuts.all Reference.recognize (registry.fill page locale template)).Fills
        (IsWritten dictionaries) text →
      (Cuts.all Placeholder.recognize template).Fills
        (IsValue registry page locale dictionaries) text) ∧
      Reference.all (registry.fill page locale template) =
        (Cuts.all Placeholder.recognize template).occurrences.filterMap Placeholder.reference? := by
  unfold Reference.all
  refine Placeholder.Complete.induction
    (motive := fun template ↦ (∀ text, (Cuts.all Reference.recognize
        (registry.fill page locale template)).Fills (IsWritten dictionaries) text →
      (Cuts.all Placeholder.recognize template).Fills
        (IsValue registry page locale dictionaries) text) ∧
      (Cuts.all Reference.recognize (registry.fill page locale template)).occurrences =
        (Cuts.all Placeholder.recognize template).occurrences.filterMap Placeholder.reference?)
    ?nil ?character ?placeholder hcomplete
  case nil =>
    refine ⟨fun text htext ↦ ?_, rfl⟩
    exact Cuts.fills_plain_iff.mpr (Cuts.fills_plain_iff.mp htext)
  case character =>
    intro character template hbrace ih
    have hnone := Placeholder.recognize_eq_none (Placeholder.not_begins_cons hbrace)
    -- filling in does not put a brace behind a brace that begins nothing
    have hfilled : Reference.recognize (character :: registry.fill page locale template) = none :=
      Reference.recognize_eq_none (Placeholder.not_begins_cons fun heq ↦ head_fill_ne _ _ _ (hbrace heq))
    rw [fill_cons _ _ _ hbrace, Cuts.all_cons Placeholder.consuming_recognize hnone,
      Cuts.all_cons Reference.consuming_recognize hfilled]
    refine ⟨fun text htext ↦ ?_, by simpa using ih.2⟩
    obtain ⟨front, back, hfront, hback, rfl⟩ := Cuts.fills_append_iff.mp htext
    obtain rfl := Cuts.fills_plain_iff.mp hfront
    exact Cuts.fills_append_iff.mpr ⟨_, _, Cuts.fills_plain_iff.mpr rfl, ih.1 back hback, rfl⟩
  case placeholder =>
    intro placeholder template hwell ih
    have hread : Placeholder.recognize (placeholder.text ++ template) = some (placeholder, template) :=
      Placeholder.recognize_eq_some.mpr ⟨hwell, rfl⟩
    rw [Cuts.all_of_some Placeholder.consuming_recognize hread]
    cases placeholder with
    | reference reference =>
        have hfilled := Reference.recognize_text hwell (registry.fill page locale template)
        rw [show (Placeholder.reference reference).text = reference.text from rfl,
          fill_reference _ _ _ hwell, Cuts.all_of_some Reference.consuming_recognize hfilled]
        refine ⟨fun text htext ↦ ?_, by simpa [Placeholder.reference?] using ih.2⟩
        obtain ⟨front, back, hfront, hback, rfl⟩ := Cuts.fills_append_iff.mp htext
        have hwritten := Cuts.fills_single_iff.mp hfront
        exact Cuts.fills_append_iff.mpr
          ⟨_, _, Cuts.fills_single_iff.mpr (.reference hwritten), ih.1 back hback, rfl⟩
    | structural value =>
        have hfilled : registry.fill page locale ((Placeholder.structural value).text ++ template) =
            registry.value page locale value ++ registry.fill page locale template :=
          Cuts.text_all_of_some Structural.consuming_recognize _
            (Structural.recognize_text value template)
        -- a value without an opening brace is no part of a reference
        rw [hfilled, Reference.all_append (Reference.not_straddles_of_not_mem (hvalues value) _),
          Reference.all_of_not_mem (hvalues value)]
        refine ⟨fun text htext ↦ ?_, by simpa [List.filterMap_cons, Placeholder.reference?] using ih.2⟩
        obtain ⟨front, back, hfront, hback, rfl⟩ := Cuts.fills_append_iff.mp htext
        obtain rfl := Cuts.fills_plain_iff.mp hfront
        exact Cuts.fills_append_iff.mpr
          ⟨_, _, Cuts.fills_single_iff.mpr (.structural value), ih.1 back hback, rfl⟩

/-- A rendered page has the literal pieces of its template in order, with a value in place of each
placeholder, and its resolutions are those of the references of the template in order. -/
theorem render_page_fills {locale : Locale} (dictionaries : Dictionaries)
    (hcomplete : Placeholder.Complete template)
    (hvalues : ∀ value, '\x7b' ∉ registry.value page locale value) :
    let cuts := Cuts.all Placeholder.recognize template
    let rendering := renderPage registry page locale dictionaries template
    cuts.Fills (IsValue registry page locale dictionaries) rendering.text ∧
      rendering.resolutions.map Resolution.reference =
        cuts.occurrences.filterMap Placeholder.reference? := by
  intro cuts rendering
  obtain ⟨htext, hreferences⟩ := fill_fills dictionaries hcomplete hvalues
  obtain ⟨hfills, hresolutions⟩ :=
    render_filled_fills dictionaries (registry.fill page locale template)
  refine ⟨htext _ hfills, ?_⟩
  show List.map Resolution.reference (renderFilled _ _).resolutions = _
  have hsame : Resolution.reference ∘ dictionaries.resolve = id :=
    funext fun reference ↦ reference_resolve dictionaries reference
  rw [hresolutions, hreferences, List.map_map, hsame, List.map_id]

/-- Let all opening braces of a template begin a placeholder, and let the structural values of two
locales be free of opening braces. Then the page rendered for each of them with any dictionaries
consists of the literal pieces of the template in the same order, with the value of the locale, a text
of its dictionary or the unresolved reference between each two of them. The same references are
resolved in the same order for both. -/
theorem render_page_consistent {first second : Locale}
    (hcomplete : Placeholder.Complete template)
    (hvalues : ∀ locale ∈ [first, second], ∀ value, '\x7b' ∉ registry.value page locale value)
    (dictionaries others : Dictionaries) :
    let cuts := Cuts.all Placeholder.recognize template
    let rendering := renderPage registry page first dictionaries template
    let other := renderPage registry page second others template
    (∃ values, List.Forall₂ (IsValue registry page first dictionaries) cuts.occurrences values ∧
        rendering.text = cuts.weave values) ∧
      (∃ values, List.Forall₂ (IsValue registry page second others) cuts.occurrences values ∧
        other.text = cuts.weave values) ∧
      rendering.resolutions.map Resolution.reference =
        other.resolutions.map Resolution.reference ∧
      rendering.resolutions.map Resolution.reference =
        cuts.occurrences.filterMap Placeholder.reference? := by
  intro cuts rendering other
  obtain ⟨hfirst, hreferences⟩ := render_page_fills dictionaries hcomplete
    (hvalues first (List.mem_cons_self ..))
  obtain ⟨hsecond, hsame⟩ := render_page_fills others hcomplete
    (hvalues second (List.mem_cons_of_mem _ (List.mem_cons_self ..)))
  exact ⟨hfirst, hsecond, hreferences.trans hsame.symm, hreferences⟩

/-- A page with a text in its markup and in its linked data, for two locales of which the second one
has no text for it. -/
theorem render_page_consistent_teas :
    let english : Locale := ⟨"en".toList, [], "en_US".toList, "en".toList, "en".toList,
      "English".toList, [], none, []⟩
    let german : Locale := ⟨"de".toList, "de/".toList, "de_DE".toList, "de".toList, "de".toList,
      "Deutsch".toList, [], none, []⟩
    let registry : Registry := ⟨[], [english, german], english⟩
    let page : Page := ⟨"home".toList, "home.html".toList, "home.html".toList, none⟩
    let template := ("<a href=\"/\x7b\x7blocalePath\x7d\x7dabout\">\x7b\x7bt.home.h1\x7d\x7d</a>" ++
      "<script type=\"application/ld+json\">[\"\x7b\x7bt.home.h1\x7d\x7d\"]</script>").toList
    let texts : Dictionary := [("home".toList, .object [("h1".toList, .string "</teas>".toList)])]
    let cuts := Cuts.all Placeholder.recognize template
    let rendering := renderPage registry page english ⟨texts, texts⟩ template
    let other := renderPage registry page german ⟨[], texts⟩ template
    (∃ values, List.Forall₂ (IsValue registry page german ⟨[], texts⟩) cuts.occurrences values ∧
        other.text = cuts.weave values) ∧
      rendering.resolutions.map Resolution.reference =
        other.resolutions.map Resolution.reference ∧
      rendering.text = ("<a href=\"/about\"></teas></a>" ++
        "<script type=\"application/ld+json\">[\"<\\/teas>\"]</script>").toList := by
  intro english german registry page template texts cuts rendering other
  have hcomplete : Placeholder.Complete template := by decide +kernel
  have hvalues : ∀ locale ∈ [english, german], ∀ value, '\x7b' ∉ registry.value page locale value := by
    intro locale hmem value
    rcases List.mem_cons.mp hmem with rfl | hmem
    · cases value <;> decide +kernel
    · obtain rfl := List.mem_singleton.mp hmem
      cases value <;> decide +kernel
  obtain ⟨-, hother, hsame, -⟩ :=
    render_page_consistent hcomplete hvalues ⟨texts, texts⟩ ⟨[], texts⟩
  exact ⟨hother, hsame, by decide +kernel⟩

end Template

end Render

end LocalizedSite
