import LocalizedSite.Proofs.Extract.Inserted
import LocalizedSite.Proofs.Extract.Keys
import LocalizedSite.Proofs.Extract.KnownData
import LocalizedSite.Proofs.Extract.Origin

/-!
# The references of a template

Every pass of an extraction keeps the placeholders of a document known, so the references of a template
are those to the texts that were taken (`extract_page_known`), and with the standard vocabulary no such
text is empty (`extract_texts_nonempty`).
-/

namespace LocalizedSite.Extract

open Slot Placeholder Harvest

variable {known : Reference → Prop} {property : Text → Prop}

section Head

/-- An attribute value lies between quotes. -/
theorem IsValue.framed {slot : Slot} (h : IsValue slot) : slot.Framed := by
  obtain ⟨front, hopening⟩ := h.opening_ends
  obtain ⟨back, hclosing⟩ := h.closing_begins
  exact ⟨by simp [hopening, isFrameEnd], by simp [hclosing, isFrameStart]⟩

/-- A structural placeholder may stand in front of a text with a local property. -/
theorem IsLocal.behind_structural (h : IsLocal known property) (value : Structural) {rest : Text}
    (hrest : property rest) : property (value.text ++ rest) :=
  have hknown : Placeholder.IsKnown known (.structural value) := trivial
  h.behind hknown hrest

/-- A structural placeholder has every local property. -/
theorem IsLocal.structural (h : IsLocal known property) (value : Structural) :
    property value.text :=
  have hknown : Placeholder.IsKnown known (.structural value) := trivial
  h.placeholder hknown

/-- A structural placeholder on a line of its own may stand in front as well. -/
theorem IsLocal.behind_line (h : IsLocal known property) (value : Structural) {gap rest : Text}
    (hends : gap.getLast?.any isFrameEnd = true) (hbrace : '\x7b' ∉ gap) (hslash : '\\' ∉ gap)
    (hrest : property rest) : property (gap ++ value.text ++ rest) := by
  rw [List.append_assoc]
  exact h.append (.inl hends) (h.plain hbrace hslash) (h.behind_structural value hrest)

/-- Putting the placeholder of the language keeps a local property. -/
theorem IsLocal.fill_language (h : IsLocal known property) {html : Text} (hhtml : property html) :
    property (fillLanguage html) := by
  unfold fillLanguage
  split
  · exact hhtml
  · next before slot rest hfirst =>
      obtain ⟨occurrence, rfl, hread, -⟩ := Recognizer.first_eq_some hfirst
      obtain ⟨rfl, hvalue, -⟩ := recognize_language_eq_some hread
      exact h.replace hvalue.framed (h.structural .htmlLang) (by simpa using hhtml)

/-- Filling a value of the head keeps a local property, if what is added does. -/
theorem IsLocal.fill_first (h : IsLocal known property) {recognize : Recognizer Slot}
    (hfillable : Fillable recognize) (value : Structural) {added : Text}
    (hadded : ∀ {rest}, property rest → property (added ++ rest)) {html : Text}
    (hhtml : property html) : property (fillFirst recognize value added html) := by
  unfold fillFirst
  split
  · exact hhtml
  · next before slot rest hfirst =>
      obtain ⟨occurrence, rfl, hread, -⟩ := Recognizer.first_eq_some hfirst
      obtain ⟨rfl, hvalue, -⟩ := hfillable _ _ _ hread
      have hsplit : property (before ++ slot.withContent slot.content ++ rest) := by
        simpa [Slot.text] using hhtml
      obtain ⟨hbefore, -, hafter⟩ := (h.framed_iff hvalue.framed).mp hsplit
      have hframed : Framed ⟨slot.opening, slot.content, "\">".toList⟩ :=
        ⟨hvalue.framed.opening_ends, rfl⟩
      have hclosed : property ("\">".toList ++ (added ++ rest)) :=
        h.append (.inl (by decide)) (h.plain (by decide) (by decide)) (hadded (h.back hafter))
      have hfilled := (h.framed_iff hframed).mpr ⟨hbefore, h.structural value, hclosed⟩
      simpa [withContent] using hfilled

/-- Putting the structural placeholders of the head keeps a local property. -/
theorem IsLocal.fill_head (h : IsLocal known property) {html : Text} (hhtml : property html) :
    property (fillHead html) := by
  have hnothing {rest : Text} (hrest : property rest) : property ([] ++ rest) := hrest
  have hline (value : Structural) {rest : Text} (hrest : property rest) :
      property (headLine value ++ rest) :=
    h.behind_line value (by decide) (by decide) (by decide) hrest
  have hcanonical := h.fill_first fillable_canonical .canonicalUrl (hline .hreflangTags)
    (h.fill_language hhtml)
  have hpage := h.fill_first (fillable_property ⟨"<meta property=\"og:url\" content=".toList, rfl⟩)
    .pageUrl hnothing hcanonical
  have htwitter := h.fill_first
    (fillable_property ⟨"<meta name=\"twitter:url\" content=".toList, rfl⟩) .pageUrl hnothing hpage
  exact h.fill_first (fillable_property ⟨"<meta property=\"og:locale\" content=".toList, rfl⟩)
    .ogLocale (hline .ogLocaleAlternates) htwitter

end Head

section Passes

variable {vocabulary : Vocabulary}

/-- Sharing the labels of navigation keeps a local property. -/
theorem IsLocal.navigation (h : IsLocal known property) {harvest : Harvest} {html : Text}
    (hknown : (navigation vocabulary.navLabels harvest html).2.IsKnown known) (hhtml : property html) :
    property (navigation vocabulary.navLabels harvest html).1 := by
  have hlabels : Pass.Rewrites vocabulary [] (shareLinkLabels vocabulary.navLabels) :=
    share_link_labels_rewrites fun entry hentry ↦ by simp [Vocabulary.labels, hentry]
  refine h.rewrite_cuts h (fun _ htext ↦ htext) (by decide) (by decide) (by decide)
    (fun state : Bool × Harvest ↦ state.2.IsKnown known) (fun state slot hnext ↦ ?_)
    (fun state slot hnext hcontent ↦ ?_) hknown hhtml
  · exact hnext.of_gathers (hlabels [] state.2 slot.content).gathers
  · refine ⟨(shareLinkLabels vocabulary.navLabels state.2 slot.content).1,
      if state.1 then switcherLine else [], ?_,
      h.rewriting (hlabels [] state.2 slot.content) hnext hcontent, fun rest hrest ↦ ?_⟩
    · simp only [rewriteNavigation]
      split <;> simp
    · split
      · exact h.behind_line .langSwitcher (by decide) (by decide) (by decide) hrest
      · exact hrest

/-- The placeholder of the locale's path may stand behind a slash. -/
theorem all_known_insert_path {front back : Text} (h : AllKnown known (front ++ '/' :: back)) :
    AllKnown known (front ++ '/' :: (Structural.text .localePath ++ back)) :=
  have hknown : Placeholder.IsKnown known (.structural .localePath) := trivial
  h.insert hknown

/-- Putting the placeholder of the locale's path into the links leaves known placeholders only. -/
theorem localize_links_known {html : Text} (h : AllKnown known html) :
    AllKnown known (localizeLinks html) :=
  localize_links_keeps (fun _ _ ↦ all_known_insert_path) h

/-- Putting the placeholder of the locale's path into the refresh tag leaves known placeholders
only. -/
theorem localize_refresh_known (target : Text) {html : Text} (h : AllKnown known html) :
    AllKnown known (localizeRefresh target html) := by
  unfold localizeRefresh
  split
  · exact h
  · next before slot rest hfirst =>
      obtain ⟨occurrence, rfl, hread, -⟩ := Recognizer.first_eq_some hfirst
      obtain ⟨rfl, hcontent⟩ := recognize_refresh_eq_some hread
      have hslash : before ++ (slot.text ++ rest) =
          (before ++ slot.opening) ++ '/' :: (target ++ slot.closing ++ rest) := by
        simp [Slot.text_eq, hcontent]
      rw [hslash] at h
      simpa [withContent, localizedPath] using all_known_insert_path h

/-- Putting the placeholder of the locale's path into the first link to the target leaves known
placeholders only. -/
theorem localize_target_known (target : Text) {html : Text} (h : AllKnown known html) :
    AllKnown known (Text.replaceFirst (linkTo ('/' :: target)) (linkTo (localizedPath target)) html) := by
  cases hcut : Text.cut? (linkTo ('/' :: target)) html with
  | none => rwa [Text.replace_first_of_none hcut]
  | some parts =>
      obtain ⟨before, rest⟩ := parts
      have hslash : html = (before ++ "href=\"".toList) ++ '/' :: (target ++ '"' :: rest) := by
        rw [Text.cut_eq_some hcut]
        simp [linkTo]
      rw [Text.replace_first_of_some hcut]
      rw [hslash] at h
      simpa [linkTo, localizedPath] using all_known_insert_path h

/-- The template of a redirect has known placeholders only. -/
theorem template_redirect_known (target : Text) {html : Text} (h : AllKnown known html) :
    AllKnown known (templateRedirect target html) := by
  have hnothing {rest : Text} (hrest : AllKnown known rest) : AllKnown known ([] ++ rest) := hrest
  have hcanonical := is_local_all_known.fill_first fillable_canonical .canonicalUrl hnothing
    (is_local_all_known.fill_language h)
  exact localize_target_known target (localize_refresh_known target hcanonical)

end Passes

section Run

/-- The reference to a taken text is plain if the key of its page and its own key are names. -/
theorem Taking.is_plain {scope : Text} {taking : Taking} (hscope : Reference.IsName scope)
    (hkey : Reference.IsName taking.key) : (taking.reference scope).IsPlain := by
  obtain ⟨keeping, key, text⟩ := taking
  cases keeping with
  | own => exact ⟨hscope, hkey⟩
  | shared => exact ⟨show Reference.IsName sharedScope by decide, hkey⟩

/-- The reference belongs to a text that was taken. -/
def Harvest.Refers (harvest : Harvest) (scope : Text) (reference : Reference) : Prop :=
  ∃ taking ∈ harvest.taken, reference = taking.reference scope

/-- All references of a run's template belong to texts that it took. -/
theorem Run.all_known {vocabulary : Vocabulary} {scope brand html : Text}
    (hvocabulary : vocabulary.HasNames) (hscope : Reference.IsName scope)
    (run : Run vocabulary scope brand html) (hliteral : occursIn html = false)
    (hescape : ¬ Json.unitEscape <:+: html) :
    AllKnown (run.popped.2.Refers scope) (localizeLinks run.popped.1) := by
  have hpopped : run.popped.2.IsKnown (run.popped.2.Refers scope) := by
    intro taking hmem
    have heq : run.popped.2.scope = scope := run.gathers.scope_eq
    rw [heq]
    exact ⟨Taking.is_plain hscope (run.key_name hvocabulary taking hmem), taking, hmem, rfl⟩
  have hheaded : IsClean (run.popped.2.Refers scope) run.headed.1 :=
    is_local_clean.rewriting (run.headed_rewriting []) (hpopped.of_gathers run.headed_gathers)
      ⟨all_known_of_literal hliteral, hescape⟩
  have hlinked : AllKnown (run.popped.2.Refers scope) run.linked.1 := by
    have hharvest := hpopped.of_gathers run.linked_gathers
    rw [← run.linked_eq] at hharvest ⊢
    exact linked_data_texts_known hharvest (is_local_clean.fill_head hheaded)
  have hnavigated : AllKnown (run.popped.2.Refers scope) run.navigated.1 := by
    have hharvest := hpopped.of_gathers run.navigated_gathers
    rw [← run.navigated_eq] at hharvest ⊢
    exact is_local_all_known.navigation hharvest hlinked
  have hbody := is_local_all_known.rewriting (body_rewriting [] run.body_eq)
    (hpopped.of_gathers run.body_gathers) hnavigated
  have hfooted := is_local_all_known.rewriting (footer_rewrites brand [] run.body.2 run.body.1)
    (hpopped.of_gathers run.footed_gathers) hbody
  have hend := is_local_all_known.rewriting (region_popup_rewrites [] run.footed.2 run.footed.1)
    hpopped hfooted
  exact localize_links_known hend

/-- An extraction has a text for a reference: in the scope of the page or in the shared scope. -/
def Extraction.HasText (extraction : Extraction) (scope : Text) (reference : Reference) : Prop :=
  (reference.scope = scope ∧ ∃ text, (reference.key, text) ∈ extraction.page) ∨
    reference.scope = sharedScope ∧ ∃ text, (reference.key, text) ∈ extraction.shared

/-- Wherever the opening braces stand in the template of a page without placeholders and escapes, there is
a structural placeholder or the reference to a text that was extracted. -/
theorem extract_page_known {page : Page} {vocabulary : Vocabulary} {brand html : Text}
    {extraction : Extraction} (h : extractPage? page vocabulary brand html = some extraction)
    (hvocabulary : vocabulary.HasNames) (hkey : Reference.IsName page.key)
    (hliteral : occursIn html = false) (hescape : ¬ Json.unitEscape <:+: html) :
    AllKnown (extraction.HasText page.key) extraction.template := by
  cases hredirect : page.redirectTo with
  | some target =>
      simp only [extractPage?, hredirect, Option.some.injEq] at h
      rw [← h]
      exact template_redirect_known target (all_known_of_literal hliteral)
  | none =>
      obtain ⟨run, rfl⟩ := exists_run_of_page hredirect h
      have hrecorded := (recorded_empty page.key).of_gathers run.gathers
      refine (run.all_known hvocabulary hkey hliteral hescape).mono ?_
      rintro reference ⟨⟨keeping, key, text⟩, hmem, rfl⟩
      obtain ⟨found, hget⟩ := hrecorded.exists_get hmem
      have hentry := Entries.mem_of_get hget
      cases keeping with
      | own => exact .inl ⟨rfl, found, hentry⟩
      | shared => exact .inr ⟨rfl, found, hentry⟩

end Run

section Texts

/-- A text that is literal has a character. -/
theorem ne_nil_of_literal {text : Text} (h : isLiteral text = true) : text ≠ [] := by
  rintro rfl
  exact absurd h (by decide)

/-- Only under a key of linked data may the origin of a text leave it empty, if no label is empty. -/
theorem Origin.ne_nil {vocabulary : Vocabulary} {taking : Taking} (h : Origin vocabulary taking)
    (hlabels : ∀ entry ∈ vocabulary.labels, entry.1 ≠ []) :
    taking.text ≠ [] ∨ taking.keeping = .own ∧ IsLinkedDataKey taking.key := by
  cases h with
  | title hliteral => exact .inl (ne_nil_of_literal hliteral)
  | value _ hliteral _ => exact .inl (ne_nil_of_literal hliteral)
  | linkedData block hfield number => exact .inr ⟨rfl, block, _, hfield, number, rfl⟩
  | element _ _ hblank =>
      refine .inl ?_
      rintro rfl
      exact hblank rfl
  | classed _ _ hliteral _ => exact .inl (ne_nil_of_literal hliteral)
  | header hliteral _ => exact .inl (ne_nil_of_literal hliteral)
  | cell hliteral _ => exact .inl (ne_nil_of_literal hliteral)
  | label hlabel => exact .inl (hlabels _ hlabel)
  | place _ hliteral _ => exact .inl (ne_nil_of_literal hliteral)

/-- A key of linked data begins like no other key of a page's own text. -/
def dataInitial : Char := 'j'

theorem IsLinkedDataKey.initial {key : Text} (h : IsLinkedDataKey key) :
    key.head? = some dataInitial := by
  obtain ⟨block, field, -, number, rfl⟩ := h
  rfl

/-- A text that is taken is no text of linked data: it is shared, or its key begins otherwise. -/
def Taking.IsPlaced (taking : Taking) : Prop :=
  taking.keeping = .own → taking.key.head? ≠ some dataInitial

/-- With the standard vocabulary no step takes a text under a key like those of linked data, apart from
the fixed keys. -/
theorem Harvest.Step.is_placed {state next : Agenda × Harvest} {taking : Taking}
    (hagenda : ∀ fixed ∈ state.1, fixed.1 = .own → fixed.2.head? ≠ some dataInitial)
    (h : Step .standard state taking next) : taking.IsPlaced := by
  cases h with
  | fixed agenda harvest taking => exact hagenda _ (List.mem_cons_self ..)
  | numbered agenda harvest hcategory text =>
      have hall : ∀ category ∈ Vocabulary.standard.categories,
          category ≠ [] ∧ category.head? ≠ some dataInitial := by decide
      obtain ⟨hne, hinitial⟩ := hall _ hcategory
      intro _
      simp only [KeyCounts.next, KeyCounts.numbered]
      split
      · exact hinitial
      · rwa [List.head?_append_of_ne_nil _ hne]
  | header => exact fun hown ↦ Keeping.noConfusion hown
  | cell => exact fun hown ↦ Keeping.noConfusion hown
  | label => exact fun hown ↦ Keeping.noConfusion hown

/-- With the standard vocabulary no text that a run takes is empty. -/
theorem Run.text_ne_nil {scope brand html : Text} (run : Run .standard scope brand html) :
    ∀ taking ∈ run.popped.2.taken, taking.text ≠ [] := by
  have hheaded : ∀ taking ∈ run.headed.2.taken, taking.IsPlaced := by
    refine (run.headed_rewriting []).gathers.forall_taken
      (fun fixed ↦ fixed.1 = .own → fixed.2.head? ≠ some dataInitial) ?_
      (fun hagenda hstep ↦ hstep.is_placed hagenda) (by simp [Harvest.empty])
    have hkeys : ∀ fixed ∈ agendaOf .own headKeys,
        fixed.1 = .own → fixed.2.head? ≠ some dataInitial := by decide
    simpa using hkeys
  -- Only the pass over linked data takes texts under keys of linked data, and these are long.
  have hlinked : ∀ taking ∈ run.linked.2.taken, taking.IsPlaced ∨ taking.text ≠ [] := by
    rw [← run.linked_eq, linked_data_texts_taken]
    intro taking hmem
    rcases List.mem_append.mp hmem with hmem | hmem
    · obtain ⟨entry, hentry, rfl⟩ := List.mem_map.mp (List.mem_reverse.mp hmem)
      have hlong := scan_linked_data_long _ _ entry hentry
      exact .inr (List.ne_nil_of_length_pos ((Nat.zero_le _).trans_lt hlong))
    · exact .inl (hheaded taking hmem)
  have hpopped : ∀ taking ∈ run.popped.2.taken, taking.IsPlaced ∨ taking.text ≠ [] := by
    refine run.linked_gathers.forall_taken
      (fun fixed ↦ fixed.1 = .own → fixed.2.head? ≠ some dataInitial) ?_
      (fun hagenda hstep ↦ .inl (hstep.is_placed hagenda)) hlinked
    show ∀ fixed ∈ Run.placeAgenda, fixed.1 = .own → fixed.2.head? ≠ some dataInitial
    decide
  have hlabels : ∀ entry ∈ Vocabulary.standard.labels, entry.1 ≠ [] := by decide
  intro taking hmem
  rcases (run.traced taking hmem).ne_nil hlabels with htext | ⟨hown, hkey⟩
  · exact htext
  · exact (hpopped taking hmem).resolve_left fun hplaced ↦ hplaced hown hkey.initial

/-- With the standard vocabulary no extracted text is empty. -/
theorem extract_texts_nonempty {page : Page} {brand html : Text} {extraction : Extraction}
    (h : extractPage? page .standard brand html = some extraction) :
    ∀ entry ∈ extraction.page ++ extraction.shared, entry.2 ≠ [] := by
  cases hredirect : page.redirectTo with
  | some target =>
      simp only [extractPage?, hredirect, Option.some.injEq] at h
      simp [← h]
  | none =>
      obtain ⟨run, rfl⟩ := exists_run_of_page hredirect h
      have hrecorded := (recorded_empty page.key).of_gathers run.gathers
      have hkept (keeping : Keeping) : ∀ entry ∈ run.popped.2.dictionary keeping, entry.2 ≠ [] :=
        fun entry hmem ↦ run.text_ne_nil _ (hrecorded.taken_of_mem hmem)
      intro entry hmem
      exact (List.mem_append.mp hmem).elim (hkept .own entry) (hkept .shared entry)

end Texts

end LocalizedSite.Extract
