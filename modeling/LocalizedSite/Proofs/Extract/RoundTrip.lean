import LocalizedSite.Proofs.Extract.Restoration
import LocalizedSite.Proofs.Extract.Keys
import LocalizedSite.Render.Page

/-!
# Rendering what was extracted

A template rendered with the texts that were taken from its page is the page again, up to blanks:
`render_restores` says so for every template that restores a text, and `run_restores` that the run of an
extraction restores its page.
-/

namespace LocalizedSite.Render

open Extract Extract.Harvest

/-- A character other than a brace in front stays, whatever follows it. -/
theorem fill_cons (registry : Registry) (page : Page) (locale : Locale) {character : Char}
    {text : Text} (hbrace : character = '\x7b' → text.head? ≠ some '\x7b') :
    registry.fill page locale (character :: text) =
      character :: registry.fill page locale text := by
  exact Cuts.text_all_cons Structural.consuming_recognize _
    (Structural.recognize_eq_none (Placeholder.not_begins_cons hbrace))

/-- Characters without braces in front stay. -/
theorem fill_append (registry : Registry) (page : Page) (locale : Locale) {front : Text}
    (hfront : '\x7b' ∉ front) (text : Text) :
    registry.fill page locale (front ++ text) = front ++ registry.fill page locale text := by
  induction front with
  | nil => rfl
  | cons character front ih =>
      simp only [List.mem_cons, not_or] at hfront
      rw [List.cons_append, fill_cons _ _ _ (fun heq ↦ absurd heq.symm hfront.1), ih hfront.2]
      rfl

/-- Filling in placeholders leaves a text without a brace in front so. -/
theorem head_fill_ne (registry : Registry) (page : Page) (locale : Locale) {text : Text}
    (h : text.head? ≠ some '\x7b') : (registry.fill page locale text).head? ≠ some '\x7b' := by
  cases text with
  | nil => simp [Registry.fill, Cuts.text]
  | cons character text =>
      have hbrace : character ≠ '\x7b' := by simpa using h
      rw [fill_cons _ _ _ fun heq ↦ absurd heq hbrace]
      simpa using hbrace

/-- References stay while the structural placeholders are filled in. -/
theorem fill_reference (registry : Registry) (page : Page) (locale : Locale)
    {reference : Reference} (h : reference.IsWellFormed) (text : Text) :
    registry.fill page locale (reference.text ++ text) =
      reference.text ++ registry.fill page locale text := by
  have hscope : '\x7b' ∉ reference.scope := fun hmem ↦ absurd (h.2.1 _ hmem) (by decide)
  have hkey : '\x7b' ∉ reference.key := fun hmem ↦ absurd (h.2.2.2 _ hmem) (by decide)
  have hinside : '\x7b' ∉ 't' :: '.' :: (reference.scope ++ '.' :: reference.key ++ closeBraces) := by
    simp [hscope, hkey, closeBraces]
  have htext (rest : Text) : reference.text ++ rest = '\x7b' :: '\x7b' ::
      ('t' :: '.' :: (reference.scope ++ '.' :: reference.key ++ closeBraces) ++ rest) := by
    simp [Reference.text, Reference.mark, openBraces]
  have hfirst : Structural.recognize (reference.text ++ text) = none := by
    rw [Reference.text_eq]
    exact Structural.recognize_mark _
  rw [htext] at hfirst ⊢
  have hskip := Cuts.text_all_cons Structural.consuming_recognize (registry.value page locale) hfirst
  rw [Registry.fill, hskip, htext]
  exact congrArg _ ((fill_cons _ _ _ (by simp)).trans
    (congrArg _ (fill_append _ _ _ hinside text)))

/-- What stands where the locale has no path of its own. -/
theorem fill_path (registry : Registry) (page : Page) (locale : Locale)
    (hpath : locale.pathPrefix = []) (text : Text) :
    registry.fill page locale ('/' :: Structural.text .localePath ++ text) =
      '/' :: registry.fill page locale text := by
  rw [List.cons_append, fill_cons _ _ _ (by simp)]
  refine congrArg _ ((Cuts.text_all_of_some Structural.consuming_recognize _
    (Structural.recognize_text .localePath text)).trans ?_)
  rw [Registry.value, hpath]
  rfl

section Restores

variable {known : Reference → Text → Prop} {template original : Text}

/-- Filling in the structural placeholders removes the path of a locale that has none. -/
theorem restores_fill (registry : Registry) (page : Page) (locale : Locale)
    (hpath : locale.pathPrefix = [])
    (h : Restores known (Structural.text .localePath) template original) :
    Restores known [] (registry.fill page locale template) original := by
  induction h with
  | nil => exact .nil
  | @character template original character hbrace _ ih =>
      rw [fill_cons _ _ _ hbrace]
      exact .character character (fun heq ↦ head_fill_ne _ _ _ (hbrace heq)) ih
  | @reference reference text piece padding template original hplain hknown hpiece hpadding _ ih =>
      have hblank : '\x7b' ∉ padding := by rcases hpadding with rfl | rfl <;> simp
      rw [List.append_assoc, fill_reference _ _ _ hplain.is_well_formed, fill_append _ _ _ hblank,
        ← List.append_assoc]
      exact .reference hplain hknown hpiece hpadding ih
  | @path template original _ ih =>
      rw [fill_path _ _ _ hpath]
      exact .path ih

/-- A character other than a brace in front of another brace stays. -/
theorem resolve_text_cons (dictionaries : Dictionaries) (form : Text → Text) {character : Char}
    {text : Text} (hbrace : character = '\x7b' → text.head? ≠ some '\x7b') :
    resolveText dictionaries form (character :: text) =
      (character :: (resolveText dictionaries form text).1,
        (resolveText dictionaries form text).2) := by
  have hnone : Reference.recognize (character :: text) = none :=
    Reference.recognize_eq_none (Placeholder.not_begins_cons hbrace)
  simp only [resolveText, Cuts.text_all_cons Reference.consuming_recognize _ hnone,
    Cuts.occurrences_all_cons Reference.consuming_recognize hnone]

/-- A reference is replaced by its text. -/
theorem resolve_text_reference (dictionaries : Dictionaries) (form : Text → Text)
    {reference : Reference} (h : reference.IsPlain) (text : Text) :
    resolveText dictionaries form (reference.text ++ text) =
      ((dictionaries.resolve reference).written form ++ (resolveText dictionaries form text).1,
        dictionaries.resolve reference :: (resolveText dictionaries form text).2) := by
  have hread := Reference.recognize_text h.is_well_formed text
  simp only [resolveText, Cuts.text_all_of_some Reference.consuming_recognize _ hread,
    Cuts.occurrences_all_of_some Reference.consuming_recognize hread, List.map_cons]

/-- Resolving the references of a template gives the text back, up to blanks, and leaves none
unresolved. -/
theorem resolve_restores {dictionaries : Dictionaries}
    (h : Restores (fun reference text ↦ dictionaries.resolve reference = .resolved reference text) []
      template original) :
    Text.withoutBlanks (resolveText dictionaries id template).1 = Text.withoutBlanks original ∧
      (resolveText dictionaries id template).2.filterMap Resolution.unresolved? = [] := by
  induction h with
  | nil => simp [resolveText, Cuts.text, Cuts.occurrences]
  | @character template original character hbrace _ ih =>
      rw [resolve_text_cons _ _ hbrace]
      refine ⟨?_, ih.2⟩
      rw [Text.without_blanks_cons, ih.1, ← Text.without_blanks_cons]
  | @reference reference text piece padding template original hplain hknown hpiece hpadding _ ih =>
      have hpadded : resolveText dictionaries id (padding ++ template) =
          (padding ++ (resolveText dictionaries id template).1,
            (resolveText dictionaries id template).2) := by
        rcases hpadding with rfl | rfl
        · rfl
        · exact resolve_text_cons _ _ (by simp)
      have hblank : Text.withoutBlanks padding = [] := by
        rcases hpadding with rfl | rfl
        · rfl
        · rfl
      rw [List.append_assoc, resolve_text_reference _ _ hplain, hpadded, hknown]
      refine ⟨?_, ?_⟩
      · simp [Resolution.written, hpiece, hblank, ih.1]
      · rw [List.filterMap_cons_none rfl]
        exact ih.2
  | @path template original _ ih =>
      rw [List.singleton_append, resolve_text_cons _ _ (by simp)]
      refine ⟨?_, ih.2⟩
      rw [Text.without_blanks_cons, ih.1, ← Text.without_blanks_cons]

/-- A template without blocks of linked data, rendered for a locale without a path of its own, is the
text that it restores. -/
theorem render_restores {registry : Registry} {page : Page} {locale : Locale}
    {dictionaries : Dictionaries} (hpath : locale.pathPrefix = [])
    (hlinked : recognizeLinkedData.first? original = none)
    (h : Restores (fun reference text ↦ dictionaries.resolve reference = .resolved reference text)
      (Structural.text .localePath) template original) :
    (renderPage registry page locale dictionaries template).unresolved = [] ∧
      Text.withoutBlanks (renderPage registry page locale dictionaries template).text =
        Text.withoutBlanks original := by
  have hfilled := restores_fill registry page locale hpath h
  have hnone := hfilled.linked_data_eq_none (.inr rfl) hlinked
  obtain ⟨htext, hresolved⟩ := resolve_restores hfilled
  simp only [renderPage, renderFilled, Cuts.all_of_first_none hnone, Rendering.unresolved]
  exact ⟨by simpa using hresolved, by simpa using htext⟩

end Restores

section Run

/-- The dictionary of the texts taken from one page. -/
def pageDictionary (key : Text) (harvest : Harvest) : Dictionary :=
  [(key, Dictionary.ofTexts harvest.page), (sharedScope, Dictionary.ofTexts harvest.shared)]

/-- In the dictionary of a page the reference to a text that its harvest holds has that text. -/
theorem resolve_of_holds {key : Text} (hkey : key ≠ sharedScope) {harvest : Harvest}
    {taking : Taking} (h : harvest.Holds taking) (source : Dictionary) :
    (Dictionaries.mk (pageDictionary key harvest) source).resolve (taking.reference key) =
      .resolved (taking.reference key) taking.text := by
  have htext : (pageDictionary key harvest).text? (taking.reference key).scope
      (taking.reference key).key = some taking.text := by
    obtain ⟨keeping, name, text⟩ := taking
    cases keeping with
    | own =>
        have hget : Entries.get? harvest.page name = some text := h
        simp [Dictionary.text?, Dictionary.scope?, pageDictionary, Taking.reference,
          Entries.get_cons, Dictionary.ofTexts, Json.members?, Entries.get_map_values, hget,
          Json.string?]
    | shared =>
        have hget : Entries.get? harvest.shared name = some text := h
        simp [Dictionary.text?, Dictionary.scope?, pageDictionary, Taking.reference,
          Entries.get_cons, hkey.symm, Dictionary.ofTexts, Json.members?, Entries.get_map_values,
          hget, Json.string?]
  rw [Dictionaries.resolve, htext]

/-- At the end of a run without clashes, the text of every reference that was put is known. -/
theorem taking_known {page : Page} {brand html : Text} (hkey : Reference.IsName page.key)
    (hshared : page.key ≠ sharedScope) (run : Run Vocabulary.standard page.key brand html)
    (hliteral : ∀ entry ∈ run.popped.2.page ++ run.popped.2.shared,
      Placeholder.occursIn entry.2 = false)
    (hunambiguous : run.popped.2.Unambiguous) (source : Dictionary) :
    ∀ taking ∈ run.popped.2.taken, taking.Known (fun reference text ↦
      (Dictionaries.mk (pageDictionary page.key run.popped.2) source).resolve reference =
        .resolved reference text) page.key := by
  intro taking hmem
  have hholds := ((recorded_empty page.key).of_gathers run.gathers).holds_iff.mpr hunambiguous
    taking hmem
  refine ⟨?_, ?_, resolve_of_holds hshared hholds source⟩
  · refine hliteral (taking.key, taking.text) (List.mem_append.mpr ?_)
    have hentry := Entries.mem_of_get hholds
    cases hkeeping : taking.keeping with
    | own => exact .inl (by simpa [hkeeping, dictionary] using hentry)
    | shared => exact .inr (by simpa [hkeeping, dictionary] using hentry)
  · have hname := run.key_name Vocabulary.standard_has_names taking hmem
    cases hkeeping : taking.keeping with
    | own => exact ⟨by simpa [Taking.reference, hkeeping] using hkey,
        by simpa [Taking.reference, hkeeping] using hname⟩
    | shared => exact ⟨by simp only [Taking.reference, hkeeping]; decide,
        by simpa [Taking.reference, hkeeping] using hname⟩

/-- The template of a run restores the page if neither the structural placeholders of the head nor
the navigation changed it. -/
theorem run_restores {vocabulary : Vocabulary} {scope brand html : Text}
    {known : Reference → Text → Prop} (run : Run vocabulary scope brand html)
    (hliteral : Placeholder.occursIn html = false)
    (hlinked : recognizeLinkedData.first? html = none)
    (hstructural : fillHead run.headed.1 = run.headed.1)
    (hnavigation : run.navigated.1 = run.linked.1)
    (hknown : ∀ taking ∈ run.popped.2.taken, taking.Known known scope) :
    Restores known (Structural.text .localePath) (localizeLinks run.popped.1) html := by
  have hfront : Restores.IsFront (Structural.text .localePath) := .inl rfl
  have hscope : run.popped.2.scope = scope := run.gathers.scope_eq
  have hstage {agenda rest : Agenda} {draft next : Draft}
      (hsteps : Rewriting vocabulary (agenda, draft) (rest, next))
      (hgathers : Gathers vocabulary (rest, next.2) ([], run.popped.2))
      (h : Restores known (Structural.text .localePath) draft.1 html) :
      Restores known (Structural.text .localePath) next.1 html := by
    refine Restores.rewriting hfront hsteps (fun taking hmem ↦ ?_) h
    have hsame : run.popped.2.scope = next.2.scope := hgathers.scope_eq
    rw [← hsame, hscope]
    exact hknown taking (hgathers.taken_suffix.subset hmem)
  have hheaded := hstage (run.headed_rewriting _) run.headed_gathers (.self hliteral)
  have hnone := hheaded.linked_data_eq_none hfront hlinked
  have hlinkedText : run.linked.1 = run.headed.1 := by
    rw [← run.linked_eq, hstructural, linked_data_texts_of_none hnone]
  rw [← hlinkedText, ← hnavigation] at hheaded
  have hbody := hstage (body_rewriting _ run.body_eq) run.body_gathers hheaded
  have hfooted := hstage (footer_rewrites brand _ run.body.2 run.body.1) run.footed_gathers hbody
  have hpopped := hstage (region_popup_rewrites [] run.footed.2 run.footed.1) .refl hfooted
  exact hpopped.localize_links

/-- A page that is extracted and rendered again with the texts taken from it, for a locale without a
path of its own, is the same page up to blanks and has no unresolved reference. The page has no
placeholder and no structured data, neither the structural placeholders of the head nor the
navigation change it, no text taken has a placeholder, and no key was given to two different
texts. -/
theorem render_extract_page {registry : Registry} {page : Page} {locale : Locale}
    {source : Dictionary} {brand html template : Text} {harvest : Harvest}
    (hredirect : page.redirectTo = none) (hkey : Reference.IsName page.key)
    (hshared : page.key ≠ sharedScope) (hpath : locale.pathPrefix = [])
    (hliteral : Placeholder.occursIn html = false)
    (hlinked : recognizeLinkedData.occursIn html = false)
    (hstructural : fillHead (headTexts (.empty page.key) html).1 =
      (headTexts (.empty page.key) html).1)
    (hnavigation :
      let headed := headTexts (.empty page.key) html
      let linked := linkedDataTexts headed.2 (fillHead headed.1)
      (navigation Vocabulary.standard.navLabels linked.2 linked.1).1 = linked.1)
    (hrun : extractContent? page.key .standard brand html = some (template, harvest))
    (hvalues : ∀ entry ∈ harvest.page ++ harvest.shared, Placeholder.occursIn entry.2 = false)
    (hunambiguous : harvest.Unambiguous) :
    extractPage? page .standard brand html = some ⟨template, harvest.page, harvest.shared⟩ ∧
      (renderPage registry page locale ⟨pageDictionary page.key harvest, source⟩
        template).unresolved = [] ∧
      Text.withoutBlanks (renderPage registry page locale ⟨pageDictionary page.key harvest, source⟩
        template).text = Text.withoutBlanks html := by
  have hextract : extractPage? page .standard brand html =
      some ⟨template, harvest.page, harvest.shared⟩ := by
    rw [extractPage?, hredirect, hrun]
    rfl
  obtain ⟨run, rfl, rfl⟩ := exists_run hrun
  rw [run.headed_eq] at hstructural
  have hnavigated : run.navigated.1 = run.linked.1 := by
    simp only [run.headed_eq, run.linked_eq] at hnavigation
    rw [← run.navigated_eq]
    exact hnavigation
  have hnone : recognizeLinkedData.first? html = none := by
    simpa [Recognizer.occursIn] using hlinked
  have hrestores := run_restores run hliteral hnone hstructural hnavigated
    (taking_known hkey hshared run hvalues hunambiguous source)
  exact ⟨hextract, render_restores hpath hnone hrestores⟩

/-- A page with a heading, a table header and a link comes back. -/
theorem render_extract_page_teas :
    let page : Page := ⟨"home".toList, "home.html".toList, "home.html".toList, none⟩
    let locale : Locale := ⟨"en".toList, [], "en_US".toList, "en".toList, "en".toList,
      "English".toList, [], none, []⟩
    let html := "<h1>Fine teas</h1>\n<th>Price</th>\n<a href=\"/about\">x</a>".toList
    let harvest : Harvest := ⟨"home".toList, [("h1".toList, 1)],
      [("h1".toList, "Fine teas".toList)], [("th_price".toList, "Price".toList)],
      [⟨.shared, "th_price".toList, "Price".toList⟩, ⟨.own, "h1".toList, "Fine teas".toList⟩]⟩
    let template := ("<h1>\x7b\x7bt.home.h1\x7d\x7d</h1>\n" ++
      "<th>\x7b\x7bt.shared.th_price\x7d\x7d</th>\n" ++
      "<a href=\"/\x7b\x7blocalePath\x7d\x7dabout\">x</a>").toList
    extractPage? page .standard [] html = some ⟨template, harvest.page, harvest.shared⟩ ∧
      (renderPage ⟨[], [locale], locale⟩ page locale ⟨pageDictionary page.key harvest, []⟩
        template).unresolved = [] ∧
      Text.withoutBlanks (renderPage ⟨[], [locale], locale⟩ page locale
        ⟨pageDictionary page.key harvest, []⟩ template).text = Text.withoutBlanks html :=
  render_extract_page rfl (by decide) (by decide) rfl (by decide +kernel) (by decide +kernel)
    (by decide +kernel) (by decide +kernel) (by decide +kernel) (by decide +kernel)
    (by simp [Unambiguous])

end Run

end LocalizedSite.Render
