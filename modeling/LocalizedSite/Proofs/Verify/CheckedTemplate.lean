import LocalizedSite.Proofs.Dictionary.Snapshot
import LocalizedSite.Proofs.Render.Consistency
import LocalizedSite.Proofs.Site.KeySurface
import LocalizedSite.Proofs.Verify.Completion

/-!
# What the check of the references promises the renderer

The check searches a template for references as it is written, and the renderer searches it in pieces after
the structural placeholders are filled in. In a template in which all opening braces begin a placeholder both
find the same references (`render_page_resolutions`), as long as the structural values have no opening brace.
So what the check found nothing against has no reference that is missing from the source dictionary, whatever
the dictionary of the locale holds (`checked_template_renders`).
-/

namespace LocalizedSite

namespace Render

variable {registry : Registry} {page : Page} {locale : Locale} {template : Text}

/-- The renderer resolves the references of a complete template as it is written, in their order. -/
theorem render_page_resolutions (hcomplete : Placeholder.Complete template)
    (hvalues : ∀ value, '\x7b' ∉ registry.value page locale value) (dictionaries : Dictionaries) :
    (renderPage registry page locale dictionaries template).resolutions =
      (Reference.all template).map dictionaries.resolve := by
  rw [renderPage, (render_filled_fills dictionaries _).2, (fill_fills dictionaries hcomplete hvalues).2,
    hcomplete.references]

/-- A reference with a text in the source dictionary may lack a translation, but nothing worse. -/
theorem not_fatal_of_resolves {dictionaries : Dictionaries} {reference : Reference} {record : Unresolved}
    (h : Site.Resolves dictionaries.source reference)
    (hrecord : (dictionaries.resolve reference).unresolved? = some record) :
    record.kind.isFatal = false := by
  obtain ⟨text, htext, -⟩ := h
  unfold Dictionaries.resolve at hrecord
  cases hlocale : dictionaries.locale.text? reference.scope reference.key with
  | some found => simp [hlocale, Resolution.unresolved?] at hrecord
  | none =>
      simp only [hlocale, htext, Resolution.unresolved?, Option.some.injEq] at hrecord
      obtain rfl := hrecord
      rfl

/-- In the source locale itself it is resolved. -/
theorem resolved_of_resolves {source : Dictionary} {reference : Reference}
    (h : Site.Resolves source reference) :
    ((Dictionaries.mk source source).resolve reference).unresolved? = none := by
  obtain ⟨text, htext, -⟩ := h
  simp [Dictionaries.resolve, htext, Resolution.unresolved?]

end Render

namespace Verify

open FileTree Render

variable {config : Config} {tree : FileTree} {source : Dictionary} {found : List Diagnostic}

/-- The check of the references was made with a source dictionary, and this is what it found. -/
structure ChecksReferences (config : Config) (tree : FileTree) (source : Dictionary)
    (found : List Diagnostic) : Prop where
  present : config.store.hasFile tree config.source.code = true
  source_read : (config.store.source tree).map Prod.fst = .ok source
  checked : checkReferences config tree = .ok found

/-- What was found against the template of a page is among the findings. -/
theorem ChecksReferences.subset (h : ChecksReferences config tree source found) {page : Page}
    (hpage : page ∈ config.pages) :
    ∃ part, checkTemplate config tree source page = .ok part ∧ part ⊆ found := by
  obtain ⟨⟨read, store⟩, hsource, rfl⟩ := map_eq_ok.mp h.source_read
  have hchecked := h.checked
  unfold checkReferences at hchecked
  simp only [h.present, hsource, Bool.not_true, Bool.false_eq_true, if_false] at hchecked
  obtain ⟨parts, hparts, hfound⟩ := bind_eq_ok.mp hchecked
  obtain rfl := Except.ok.inj hfound
  obtain ⟨part, hpart⟩ := exists_map_m_iff.mp ⟨parts, hparts⟩ page hpage
  refine ⟨part, hpart, fun diagnostic hmem ↦ ?_⟩
  have hflat : diagnostic ∈ parts.flatten :=
    List.mem_flatten.mpr ⟨part, (mem_map_m_iff hparts).mpr ⟨page, hpage, hpart⟩, hmem⟩
  -- With a finding in hand, the statement that all is well is not made.
  have hsome : parts.flatten.isEmpty = false :=
    List.isEmpty_eq_false_iff.mpr (List.ne_nil_of_mem hflat)
  rw [orPassed, hsome]
  exact hflat

/-- A template against which nothing was found has a text in the source dictionary for each reference. -/
theorem ChecksReferences.resolves (h : ChecksReferences config tree source found) {page : Page}
    {template : Text} (hpage : page ∈ config.pages)
    (htemplate : tree.readText (config.templatePath page) = .ok template)
    (hsilent : ∀ diagnostic ∈ found, diagnostic.path ≠ some page.template) :
    ∀ reference ∈ Reference.all template, Site.Resolves source reference := by
  obtain ⟨part, hpart, hsubset⟩ := h.subset hpage
  have hfile : tree.isFile (config.templatePath page) = true := FileTree.is_file_of_read_text htemplate
  unfold checkTemplate at hpart
  simp only [hfile, Bool.not_true, Bool.false_eq_true, if_false, Verify.readText, htemplate] at hpart
  obtain rfl := Except.ok.inj hpart
  refine Site.missing_references_eq_nil.mp (List.eq_nil_iff_forall_not_mem.mpr fun reference hmem ↦ ?_)
  exact hsilent _ (hsubset (List.mem_map.mpr ⟨reference, hmem, rfl⟩)) rfl

/-- Let the check of the references find nothing against the template of a page, let all opening braces of the
template begin a placeholder, and let the structural values of a locale have no opening brace. Then a page that
is rendered from the template for the locale, whatever its dictionary holds, has no reference without a text in
the source dictionary, and all its references are resolved if the source dictionary is that of the locale. -/
theorem checked_template_renders {page : Page} {template : Text}
    (hchecks : ChecksReferences config tree source found) (hpage : page ∈ config.pages)
    (htemplate : tree.readText (config.templatePath page) = .ok template)
    (hsilent : ∀ diagnostic ∈ found, diagnostic.path ≠ some page.template)
    (hcomplete : Placeholder.Complete template) {registry : Registry} {target : Page} {locale : Locale}
    (hvalues : ∀ value, '\x7b' ∉ registry.value target locale value) :
    (∀ dictionary, ∀ record ∈ (renderPage registry target locale ⟨dictionary, source⟩ template).unresolved,
        record.kind.isFatal = false) ∧
      (renderPage registry target locale ⟨source, source⟩ template).unresolved = [] := by
  have hresolves := hchecks.resolves hpage htemplate hsilent
  have hresolutions := render_page_resolutions hcomplete hvalues
  constructor
  · intro dictionary record hrecord
    rw [Rendering.unresolved, hresolutions, List.filterMap_map] at hrecord
    obtain ⟨reference, hmem, hunresolved⟩ := List.mem_filterMap.mp hrecord
    exact not_fatal_of_resolves (hresolves reference hmem) hunresolved
  · rw [Rendering.unresolved, hresolutions, List.filterMap_map, List.filterMap_eq_nil_iff]
    exact fun reference hmem ↦ resolved_of_resolves (hresolves reference hmem)

/-- A page with a link and two texts, of which the German dictionary has one and no text for the other. -/
theorem checked_template_renders_teas :
    let config := Site.teaConfig "templates" "en_GB"
    let template := ("<a href=\"/\x7b\x7blocalePath\x7d\x7dteas\">\x7b\x7bt.home.h1\x7d\x7d</a>" ++
      "\x7b\x7bt.home.p_1\x7d\x7d").toList
    let source : Dictionary :=
      [("home".toList, .object [("h1".toList, .string "Teas".toList), ("p_1".toList, .string "Fine".toList)])]
    let german : Dictionary :=
      [("home".toList, .object [("h1".toList, .string "Tees".toList), ("p_1".toList, .object [])])]
    let base : FileTree := ⟨["work".toList], [(["work".toList], .directory),
      (["work".toList, "templates".toList], .directory),
      (["work".toList, "templates".toList, "en.json".toList], .file (.text template)),
      (["work".toList, "locales".toList], .directory)]⟩
    let tree := base.setNode ["work".toList, "locales".toList, "en.json".toList]
      (.file (.text (Store.fileText (.object source))))
    let page : Page := ⟨"home".toList, "en.json".toList, "index.html".toList, none⟩
    let registry : Registry := .ofAddress config.baseUrl [config.source] config.source
    let rendering := renderPage registry page config.source ⟨german, source⟩ template
    (∃ found, ChecksReferences config tree source found ∧
        ∀ diagnostic ∈ found, diagnostic.path ≠ some page.template) ∧
      rendering.unresolved = [⟨⟨"home".toList, "p_1".toList⟩, .translation⟩] ∧
      (∀ record ∈ rendering.unresolved, record.kind.isFatal = false) ∧
      (renderPage registry page config.source ⟨source, source⟩ template).unresolved = [] := by
  intro config template source german base tree page registry rendering
  have hwell : Json.WellFormed (.object source) := by
    refine .object (List.nodup_singleton _) fun member hmem ↦ ?_
    rw [List.mem_singleton.mp hmem]
    exact .object (by decide) fun inner hinner ↦ by
      rcases List.mem_cons.mp hinner with rfl | hinner
      · exact .string _
      · rw [List.mem_singleton.mp hinner]
        exact .string _
  have hwrite : config.store.writeFile base config.source.code source = .ok tree := rfl
  have hread : config.store.read tree config.source.code = .ok source :=
    Store.read_of_write_file hwell hwrite
  have hfile : config.store.hasFile tree config.source.code = true := rfl
  have htemplate : tree.readText (config.templatePath page) = .ok template := rfl
  have hcheck : ∀ other ∈ config.pages, checkTemplate config tree source other = .ok [] := by
    intro other hother
    obtain rfl := List.mem_singleton.mp hother
    exact Site.check_template_resolved htemplate (Site.missing_references_eq_nil.mp (by decide +kernel))
  have hchecks : ChecksReferences config tree source
      [passed .keySurface "All template keys exist in the source dictionary".toList] := by
    refine ⟨hfile, ?_, Site.check_references_passed hfile hread hcheck⟩
    rw [Site.source_of_read hread]
    rfl
  have hsilent : ∀ diagnostic ∈ [passed .keySurface "All template keys exist in the source dictionary".toList],
      diagnostic.path ≠ some page.template := by
    intro diagnostic hmem
    rw [List.mem_singleton.mp hmem]
    simp [passed]
  have hvalues : ∀ value, '\x7b' ∉ registry.value page config.source value := by
    intro value
    cases value <;> decide +kernel
  obtain ⟨hfatal, hresolved⟩ := checked_template_renders hchecks (List.mem_singleton.mpr rfl) htemplate hsilent
    (by decide +kernel) hvalues
  exact ⟨⟨_, hchecks, hsilent⟩, by decide +kernel, hfatal german, hresolved⟩

end Verify

end LocalizedSite
