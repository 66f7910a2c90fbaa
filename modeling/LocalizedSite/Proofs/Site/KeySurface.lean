import LocalizedSite.Proofs.Config.Faults
import LocalizedSite.Proofs.Dictionary.Merge
import LocalizedSite.Proofs.Extract.KeySurface
import LocalizedSite.Proofs.Site.Extraction
import LocalizedSite.Verify.Site

/-!
# The references of a site's templates

After an extraction with the standard vocabulary every reference in a written template has a text in
the source dictionary (`extract_resolves`), as long as the authored pages, the templates and the
source dictionary are different files.
-/

namespace LocalizedSite

namespace Config

open FileTree Yaml

variable {pages read : List Page}

/-- The keys of the pages that are read differ. -/
theorem pages_from_nodup {number : Nat} {values : List Value}
    (h : pagesFrom pages number values = .ok read) (hpages : (pages.map Page.key).Nodup) : (read.map Page.key).Nodup := by
  induction values generalizing pages number with
  | nil =>
      obtain rfl := Except.ok.inj h
      exact hpages
  | cons value values ih =>
      simp only [pagesFrom, bind, Except.bind] at h
      split at h
      · exact absurd h (by simp)
      · next found _ =>
          split at h
          · exact absurd h (by simp [throw, throwThe, MonadExceptOf.throw])
          · next hnew => exact ih h (keys_nodup_add hpages hnew)

/-- The pages of a configuration are those that were read. -/
theorem pages_of_groups {root : FilePath} {groups : Group} {config : Config}
    (h : ofGroups root groups = .ok config) :
    pagesOf (Value.field groups "pages") = .ok config.pages := by
  obtain ⟨locales, -, h⟩ := bind_eq_ok.mp h
  obtain ⟨site, -, h⟩ := bind_eq_ok.mp h
  obtain ⟨source, -, h⟩ := bind_eq_ok.mp h
  obtain ⟨pages, hpages, h⟩ := bind_eq_ok.mp h
  obtain ⟨baseUrl, -, h⟩ := bind_eq_ok.mp h
  obtain ⟨vocabulary, -, h⟩ := bind_eq_ok.mp h
  obtain ⟨translation, -, h⟩ := bind_eq_ok.mp h
  obtain rfl := Except.ok.inj h
  exact hpages

/-- The keys of the pages of a configuration differ. -/
theorem keys_nodup_of_value {root : FilePath} {value : Value} {config : Config}
    (h : ofValue root value = .ok config) : config.pageKeys.Nodup := by
  have hgroups : ∃ groups, ofGroups root groups = .ok config := by
    unfold ofValue at h
    split at h
    · exact ⟨[], h⟩
    · split at h
      · next groups _ => exact ⟨groups, h⟩
      · exact absurd h (by simp)
  obtain ⟨groups, hgroups⟩ := hgroups
  have hpages := pages_of_groups hgroups
  unfold pagesOf at hpages
  split at hpages
  · exact pages_from_nodup hpages List.nodup_nil
  · exact absurd hpages (by simp)

end Config

namespace FileTree

/-- A piece without line feeds at the beginning of what is read is at the beginning of the text. -/
theorem prefix_of_replace_returns {piece text : Text} (h : '\n' ∉ piece)
    (hbegins : piece <+: replaceReturns text) : piece <+: text := by
  induction piece generalizing text with
  | nil => exact List.nil_prefix
  | cons character piece ih =>
      simp only [List.mem_cons, not_or] at h
      have hfeed {rest : Text} : ¬ character :: piece <+: '\n' :: rest := fun hcons ↦
        h.1 (List.cons_prefix_cons.mp hcons).1.symm
      fun_cases replaceReturns text with
      | case1 => exact hbegins
      | case2 rest => exact absurd hbegins (by rw [replaceReturns.eq_2]; exact hfeed)
      | case3 rest hnext => exact absurd hbegins (by rw [replaceReturns.eq_3 _ hnext]; exact hfeed)
      | case4 other rest hpair hother =>
          rw [replaceReturns.eq_4 _ _ hpair hother] at hbegins
          obtain ⟨rfl, hrest⟩ := List.cons_prefix_cons.mp hbegins
          exact List.cons_prefix_cons.mpr ⟨rfl, ih h.2 hrest⟩

end FileTree

namespace Placeholder

open FileTree

variable {known : Reference → Prop}

/-- Reading a text leaves known placeholders only. -/
theorem AllKnown.replace_returns {text : Text} (h : AllKnown known text) :
    AllKnown known (replaceReturns text) := by
  fun_induction replaceReturns text with
  | case1 => exact h
  | case2 rest ih =>
      have hrest := (show AllKnown known ("\r\n".toList ++ rest) from h).back
      exact AllKnown.behind_plain (show '\x7b' ∉ ['\n'] by decide) (ih hrest)
  | case3 rest hnext ih =>
      have hrest := (show AllKnown known (['\r'] ++ rest) from h).back
      exact AllKnown.behind_plain (show '\x7b' ∉ ['\n'] by decide) (ih hrest)
  | case4 character rest hpair hother ih =>
      obtain ⟨hhere, hrest⟩ := all_known_cons.mp h
      refine all_known_cons.mpr ⟨fun hbraces ↦ ?_, ih hrest⟩
      have hread : replaceReturns (character :: rest) = character :: replaceReturns rest :=
        replaceReturns.eq_4 _ _ hpair hother
      rw [← hread] at hbraces ⊢
      obtain ⟨placeholder, hknown, behind, htext⟩ :=
        hhere (prefix_of_replace_returns (by decide) hbraces)
      have hreturn : '\r' ∉ placeholder.text := fun hmem ↦
        absurd (inside_of_mem_known hknown hmem) (by decide)
      refine ⟨placeholder, hknown, replaceReturns behind, ?_⟩
      rw [← htext, replace_returns_append_of_not_mem hreturn]

end Placeholder

namespace Site

open Dictionary Extract FileTree Placeholder SiteAction Verify

/-- The pages that an extraction goes through: those that are named, or all if none is. -/
def pagesToExtract (config : Config) (named : List Page) : List Page :=
  if named.isEmpty then config.pages else named

/-- The file of the source dictionary. -/
def dictionaryPath (config : Config) : FilePath :=
  config.store.path config.source.code

/-- Two paths lead to the same place. -/
def LeadAlike (tree : FileTree) (first second : FilePath) : Prop :=
  ∃ place, tree.locate first = .ok place ∧ tree.locate second = .ok place

/-- Some pages can be extracted: their keys are names other than that of the header, and their authored
files are there, without placeholders and escapes by number. -/
structure AreReady (config : Config) (before : FileTree) (pages : List Page) : Prop where
  key_name : ∀ page ∈ pages, Reference.IsName page.key
  key_header : ∀ page ∈ pages, page.key ≠ headerName
  present : ∀ page ∈ pages, before.isFile (config.authoredPath page) = true
  literal : ∀ page ∈ pages, ∀ html, before.readText (config.authoredPath page) = .ok html →
    occursIn html = false
  unescaped : ∀ page ∈ pages, ∀ html, before.readText (config.authoredPath page) = .ok html →
    ¬ Json.unitEscape <:+: html

/-- The templates of some pages are other files than the authored pages and the source dictionary. -/
structure StandApart (config : Config) (tree : FileTree) (pages : List Page) : Prop where
  authored : ∀ page ∈ pages, ∀ other ∈ pages,
    ¬ LeadAlike tree (config.authoredPath page) (config.templatePath other)
  dictionary : ∀ page ∈ pages, ¬ LeadAlike tree (config.templatePath page) (dictionaryPath config)

/-- All entries of the shared scope are texts that are not empty, in a dictionary that stood before
where the source dictionary stands after. -/
def SharesTexts (config : Config) (before after : FileTree) : Prop :=
  ∀ place text existing, after.locate (dictionaryPath config) = .ok place →
    before.node? place = some (.file (.text text)) →
    Json.parse (lineFeeds text) = .ok (.object existing) →
    ∀ members, Dictionary.scope? existing sharedScope = some members →
      ∀ entry ∈ members, IsFilled entry.2

/-- A dictionary has a text that is not empty for a reference. -/
def Resolves (source : Dictionary) (reference : Reference) : Prop :=
  ∃ text, source.text? reference.scope reference.key = some text ∧ text ≠ []

variable {config : Config} {before after : FileTree} {named : List Page} {report : ExtractionReport}

/-- An extraction goes through its pages and then saves their texts. -/
theorem ends_of_extract (h : (extract config named).Ends before report after) :
    ∃ done current merged,
      ((pagesToExtract config named).foldlM (extractPage config) ⟨[], [], []⟩).Ends before done
          current ∧
        (saveTexts config done.texts).Ends current merged after := by
  obtain ⟨done, current, hpages, hrest⟩ := ends_of_bind h
  obtain ⟨merged, written, hsave, hend⟩ := ends_of_bind hrest
  obtain ⟨-, rfl⟩ := ends_of_pure hend
  exact ⟨done, current, merged, hpages, hsave⟩

/-- The texts of an extraction with the standard vocabulary are filled. -/
theorem texts_are_filled (hvocabulary : config.vocabulary = .standard) {page : Page}
    {extraction : Extraction} (h : ExtractsTo config before page extraction) :
    (textsOf extraction).AreFilled := by
  obtain ⟨html, -, hextract⟩ := h
  rw [hvocabulary] at hextract
  exact extract_texts_nonempty hextract

/-- The references of a template, also of one that is read back, belong to texts of the extraction. -/
theorem reference_has_text (hvocabulary : config.vocabulary = .standard) {pages : List Page}
    (hready : AreReady config before pages) {page : Page} (hpage : page ∈ pages)
    {extraction : Extraction} (h : ExtractsTo config before page extraction) {reference : Reference}
    (hmem : reference ∈ Reference.all (lineFeeds extraction.template)) :
    (textsOf extraction).Has page.key reference.scope reference.key := by
  obtain ⟨html, hread, hextract⟩ := h
  have hknown := extract_page_known hextract (by rw [hvocabulary]; exact Vocabulary.standard_has_names)
    (hready.key_name page hpage) (hready.literal page hpage html hread)
    (hready.unescaped page hpage html hread)
  rw [line_feeds_eq_replace] at hmem
  rcases hknown.replace_returns.reference hmem with ⟨hscope, text, hentry⟩ | ⟨hscope, text, hentry⟩
  · exact .inl ⟨hscope, List.mem_map.mpr ⟨_, hentry, rfl⟩⟩
  · exact .inr ⟨hscope, List.mem_map.mpr ⟨_, hentry, rfl⟩⟩

/-- The source dictionary that an extraction finds shares texts only. -/
theorem existing_is_filled {pages : List Page} {done : ExtractedPages} {current : FileTree}
    (hprogress : Progress config before pages done current) (hgrows : current.Grows after)
    (hapart : StandApart config after pages) (hshares : SharesTexts config before after)
    {existing : Dictionary} (h : config.store.read current config.source.code = .ok existing) :
    ∀ members, existing.scope? sharedScope = some members → ∀ entry ∈ members, IsFilled entry.2 := by
  unfold Store.read at h
  simp only at h
  split at h
  · split at h
    · exact absurd h (by simp)
    · next text htext =>
        split at h
        · exact absurd h (by simp)
        · next found hparse =>
            obtain rfl := Except.ok.inj h
            obtain ⟨place, written, hlocate, hplace, rfl⟩ := file_of_read_text htext
            have hafter := locate_of_grows hgrows hlocate
            have helsewhere : IsElsewhere config current pages place := fun page hpage htemplate ↦
              hapart.dictionary page hpage ⟨place, locate_of_grows hgrows htemplate, hafter⟩
            have hbefore := (hprogress.files place helsewhere (.text written)).mp hplace
            exact hshares place written found hafter hbefore hparse
        · exact absurd h (by simp)
  · obtain rfl := Except.ok.inj h
    exact fun members hmembers ↦ absurd hmembers (by simp [scope?])

/-- A template misses no reference exactly if each has a text that is not empty in the source dictionary. -/
theorem missing_references_eq_nil {source : Dictionary} {template : Text} :
    missingReferences source template = [] ↔ ∀ reference ∈ Reference.all template, Resolves source reference := by
  have hone (reference : Reference) :
      ¬ (source.text? reference.scope reference.key).all List.isEmpty = true ↔ Resolves source reference := by
    unfold Resolves
    cases source.text? reference.scope reference.key with
    | none => simp
    | some text => simp
  simp only [missingReferences, List.filter_eq_nil_iff, List.mem_eraseDups, hone]

/-- A template without missing references passes its check. -/
theorem check_template_resolved {tree : FileTree} {source : Dictionary} {page : Page} {template : Text}
    (htemplate : tree.readText (config.templatePath page) = .ok template)
    (h : ∀ reference ∈ Reference.all template, Resolves source reference) :
    checkTemplate config tree source page = .ok [] := by
  obtain ⟨place, found, hlocate, hplace, -⟩ := file_of_read_text htemplate
  have hfile : tree.isFile (config.templatePath page) = true := by
    simp only [isFile, at?, hlocate, hplace]
  unfold checkTemplate
  simp only [hfile, Bool.not_true, Bool.false_eq_true, if_false, Verify.readText, htemplate]
  show Except.ok ((missingReferences source template).map _) = _
  rw [missing_references_eq_nil.mpr h]
  rfl

/-- A site begins with no dictionary in its store, so the source dictionary is read from its file. -/
theorem source_of_read {tree : FileTree} {source : Dictionary}
    (h : config.store.read tree config.source.code = .ok source) :
    config.store.source tree = .ok (source, config.store.keep config.source.code source) := by
  show (config.store.read tree config.source.code).map _ = _
  rw [h]
  rfl

/-- All templates pass if each does. -/
theorem check_references_passed {tree : FileTree} {source : Dictionary}
    (hfile : config.store.hasFile tree config.source.code = true)
    (hread : config.store.read tree config.source.code = .ok source)
    (h : ∀ page ∈ config.pages, checkTemplate config tree source page = .ok []) :
    checkReferences config tree = .ok
      [passed .keySurface "All template keys exist in the source dictionary".toList] := by
  have hchecks (pages : List Page)
      (hpages : ∀ page ∈ pages, checkTemplate config tree source page = .ok []) :
      pages.mapM (checkTemplate config tree source) = .ok (pages.map fun _ ↦ []) := by
    induction pages with
    | nil => rfl
    | cons page pages ih =>
        rw [List.mapM_cons, hpages page (List.mem_cons_self ..),
          ih fun other hother ↦ hpages other (List.mem_cons_of_mem _ hother)]
        rfl
  unfold checkReferences
  simp only [hfile, source_of_read hread, hchecks config.pages h, Bool.not_true, Bool.false_eq_true, if_false]
  have hflat : (config.pages.map fun _ ↦ ([] : List Diagnostic)).flatten = [] := by simp
  show Except.ok (orPassed .keySurface "All template keys exist in the source dictionary"
    (config.pages.map fun _ ↦ ([] : List Diagnostic)).flatten) = _
  rw [hflat]
  rfl

/-- What the pages of a configuration were extracted to is merged with the dictionary that was there,
and saved. -/
theorem progress_of_extract {root : FilePath} {value : Yaml.Value}
    (hconfig : Config.ofValue root value = .ok config) (hnamed : named ⊆ config.pages)
    (hready : AreReady config before (pagesToExtract config named))
    (hapart : StandApart config after (pagesToExtract config named))
    (hrun : (extract config named).Ends before report after) :
    ∃ done current existing,
      Progress config before (pagesToExtract config named) done current ∧ current.Grows after ∧
        config.store.read current config.source.code = .ok existing ∧
        config.store.writeFile current config.source.code
          (merge existing done.texts config.source.header config.pageKeys) = .ok after := by
  obtain ⟨done, current, merged, hpages, hsave⟩ := ends_of_extract hrun
  obtain ⟨existing, hread, rfl, hwrite⟩ := ends_of_save_texts hsave
  have hsubset : pagesToExtract config named ⊆ config.pages := by
    unfold pagesToExtract
    split
    · exact List.Subset.refl _
    · exact hnamed
  have hgrows : current.Grows after := grows_of_write_making hwrite
  refine ⟨done, current, existing, ?_, hgrows, hread, hwrite⟩
  refine (progress_nil config before).run ⟨hready.present, ?_⟩ ?_ hpages
  · intro page hpage place hplace other hother hlocate
    have hraw := locate_of_grows (grows_of_pages hpages) hplace
    exact hapart.authored page hpage other hother
      ⟨place, locate_of_grows hgrows hraw, locate_of_grows hgrows hlocate⟩
  · intro page hpage other hother
    exact List.inj_on_of_nodup_map (Config.keys_nodup_of_value hconfig) (hsubset hother)
      (hsubset hpage)

/-- After an extraction with the standard vocabulary, every reference in a template that it wrote has a
text in the source dictionary that it saved, so the check of references finds nothing there, and passes
if there is no other template. -/
theorem extract_resolves {root : FilePath} {value : Yaml.Value}
    (hconfig : Config.ofValue root value = .ok config) (hvocabulary : config.vocabulary = .standard)
    (hnamed : named ⊆ config.pages)
    (hready : AreReady config before (pagesToExtract config named))
    (hapart : StandApart config after (pagesToExtract config named))
    (hshares : SharesTexts config before after)
    (hrun : (extract config named).Ends before report after) :
    ∃ source, config.store.read after config.source.code = .ok source ∧
      (∀ page ∈ pagesToExtract config named,
        ∃ template, after.readText (config.templatePath page) = .ok template ∧
          (∀ reference ∈ Reference.all template, Resolves source reference) ∧
            checkTemplate config after source page = .ok []) ∧
      ((∀ page ∈ config.pages, page ∈ pagesToExtract config named ∨
          after.isFile (config.templatePath page) = false) →
        checkReferences config after = .ok
          [passed .keySurface "All template keys exist in the source dictionary".toList]) := by
  obtain ⟨done, current, existing, hprogress, hgrows, hread, hwrite⟩ :=
    progress_of_extract hconfig hnamed hready hapart hrun
  have hexisting := Store.read_well_formed hread
  have hsource := Store.read_of_write_file
    (merge_well_formed hexisting (header_well_formed config.source) done.texts config.pageKeys) hwrite
  have hnames : (Entries.names existing).Nodup := by
    cases hexisting with
    | object hnames _ => exact hnames
  have hfilled : ∀ result ∈ done.texts, result.2.AreFilled := by
    intro result hresult
    obtain ⟨page, -, extraction, hextracts, rfl⟩ := hprogress.origin result hresult
    exact texts_are_filled hvocabulary hextracts
  obtain ⟨location, hdictionary, -⟩ := node_of_write_making hwrite
  have htemplates : ∀ page ∈ pagesToExtract config named,
      ∃ template, after.readText (config.templatePath page) = .ok template ∧
        ∀ reference ∈ Reference.all template,
          Resolves (merge existing done.texts config.source.header config.pageKeys) reference := by
    intro page hpage
    obtain ⟨place, hlocate, other, hother, extraction, hextracts, hplace⟩ :=
      hprogress.templates page hpage
    have hafter := locate_of_grows hgrows hlocate
    have hne : place ≠ location := by
      rintro rfl
      exact hapart.dictionary page hpage ⟨place, hafter, hdictionary⟩
    refine ⟨_, read_text_of_file hafter (node_elsewhere hwrite hdictionary hne hplace), ?_⟩
    intro reference hreference
    obtain ⟨found, hfound, hget⟩ := hprogress.collected other hother
    obtain rfl := hextracts.unique hfound
    have hhas := reference_has_text hvocabulary hready hother hextracts hreference
    have hscope : reference.scope ≠ headerName := by
      rcases hhas with ⟨heq, -⟩ | ⟨heq, -⟩
      · rw [heq]
        exact hready.key_header other hother
      · rw [heq]
        decide
    exact merge_has_text hnames (existing_is_filled hprogress hgrows hapart hshares hread) hfilled
      (Entries.mem_of_get hget) hscope hhas
  have hchecked : ∀ page ∈ pagesToExtract config named, checkTemplate config after
      (merge existing done.texts config.source.header config.pageKeys) page = .ok [] := by
    intro page hpage
    obtain ⟨template, htemplate, hresolves⟩ := htemplates page hpage
    exact check_template_resolved htemplate hresolves
  refine ⟨_, hsource, fun page hpage ↦ ?_, fun hall ↦ ?_⟩
  · obtain ⟨template, htemplate, hresolves⟩ := htemplates page hpage
    exact ⟨template, htemplate, hresolves, hchecked page hpage⟩
  · refine check_references_passed (is_file_of_write_making hwrite) hsource fun page hpage ↦ ?_
    rcases hall page hpage with hpassed | hnone
    · exact hchecked page hpassed
    · simp [checkTemplate, hnone, pure, Except.pure]

/-- The configuration file of a site with one page. -/
def teaSite (templates ogLocale : String) : Yaml.Value :=
  let text (value : String) := Yaml.Value.text value.toList
  let group (entries : List (String × Yaml.Value)) : Yaml.Value :=
    .mapping (entries.map fun entry ↦ (text entry.1, entry.2))
  group [("site", group [("base_url", text "https://example.com"), ("templates_dir", text templates),
      ("locales_dir", text "locales")]),
    ("locales", group [("en", group [("og_locale", text ogLocale), ("html_lang", text "en"),
      ("name", text "English"), ("path_prefix", text "")])]),
    ("pages", .sequence [group [("key", text "home"), ("template", text "en.json"),
      ("output", text "index.html")]])]

/-- The configuration of that site. -/
def teaConfig (templates ogLocale : String) : Config :=
  let english : Locale := ⟨"en".toList, [], ogLocale.toList, "en".toList, "en".toList,
    "English".toList, [], none, []⟩
  { baseUrl := "https://example.com".toList, brandName := [], source := english
    locales := [("en".toList, english)]
    pages := [⟨"home".toList, "en.json".toList, "index.html".toList, none⟩]
    vocabulary := .standard, sourceDirectory := .ofText ".".toList
    templatesDirectory := .ofText templates.toList, localesDirectory := .ofText "locales".toList
    outputDirectory := .ofText "dist".toList, staticFiles := [], staticDirectories := []
    hiddenPages := [], exemptPages := [], translation := .standard }

/-- The source dictionary of that site, which shares one text. -/
def teaDictionary : Dictionary :=
  [(sharedScope, .object [("nav_home".toList, .string "Home".toList)])]

/-- The files of that site. -/
def teaFiles (html : String) : FileTree :=
  ⟨["work".toList], [(["work".toList], .directory),
    (["work".toList, "index.html".toList], .file (.text html.toList)),
    (["work".toList, "templates".toList], .directory),
    (["work".toList, "locales".toList], .directory),
    (["work".toList, "locales".toList, "en.json".toList],
      .file (.text (Store.fileText (.object teaDictionary))))]⟩

/-- What the files are after all pages were extracted. -/
def afterExtraction (config : Config) (before : FileTree) : FileTree :=
  ((extract config []).run.run before).2

/-- An extraction of all pages ends with those files. -/
theorem ends_after_extraction (h : ((extract config []).run.run before).1 = .ok report) :
    (extract config []).Ends before report (afterExtraction config before) :=
  Prod.ext h rfl

/-- The files grow with an extraction. -/
theorem grows_of_extract (h : (extract config named).Ends before report after) :
    before.Grows after := by
  obtain ⟨done, current, merged, hpages, hsave⟩ := ends_of_extract h
  obtain ⟨existing, -, -, hwrite⟩ := ends_of_save_texts hsave
  exact (grows_of_pages hpages).trans (grows_of_write_making hwrite)

/-- Paths that led to different places before do not lead to the same place after. -/
theorem not_lead_alike (hgrows : before.Grows after) {first second : FilePath} {place other : Location}
    (hfirst : before.locate first = .ok place) (hsecond : before.locate second = .ok other)
    (hne : place ≠ other) : ¬ LeadAlike after first second := by
  rintro ⟨found, hfound, hsame⟩
  obtain rfl := Except.ok.inj ((locate_of_grows hgrows hfirst).symm.trans hfound)
  exact hne (Except.ok.inj (hsame.symm.trans (locate_of_grows hgrows hsecond)))

section Tea

variable {templates ogLocale html : String}

/-- The page of that site can be extracted if its file has no placeholder and no escape. -/
theorem tea_is_ready (hliteral : occursIn (lineFeeds html.toList) = false)
    (hunescaped : ¬ Json.unitEscape <:+: lineFeeds html.toList) :
    AreReady (teaConfig templates ogLocale) (teaFiles html)
      (pagesToExtract (teaConfig templates ogLocale) []) := by
  have hread {text : Text} (h : (teaFiles html).readText (.ofText "index.html".toList) = .ok text) :
      lineFeeds html.toList = text := Except.ok.inj h
  constructor <;> intro page hpage <;> obtain rfl := List.mem_singleton.mp hpage
  · decide
  · decide
  · rfl
  · intro text htext
    exact hread htext ▸ hliteral
  · intro text htext
    exact hread htext ▸ hunescaped

/-- The dictionary of that site shares texts only. -/
theorem tea_shares_texts (hgrows : (teaFiles html).Grows after) :
    SharesTexts (teaConfig templates ogLocale) (teaFiles html) after := by
  intro place text existing hlocate hplace hparse members hmembers entry hentry
  have hplaced : (teaFiles html).locate (dictionaryPath (teaConfig templates ogLocale)) =
      .ok ["work".toList, "locales".toList, "en.json".toList] := rfl
  obtain rfl := Except.ok.inj ((locate_of_grows hgrows hplaced).symm.trans hlocate)
  have hwell : Json.WellFormed (.object teaDictionary) :=
    .object (List.nodup_singleton _) fun member hmember ↦ by
      obtain rfl := List.mem_singleton.mp hmember
      exact .object (List.nodup_singleton _) fun inner hinner ↦ by
        obtain rfl := List.mem_singleton.mp hinner
        exact .string _
  have hfeeds : lineFeeds (Store.fileText (.object teaDictionary)) =
      Store.fileText (.object teaDictionary) := by decide +kernel
  obtain rfl : Store.fileText (.object teaDictionary) = text :=
    Content.text.inj (FileNode.file.inj (Option.some.inj hplace))
  rw [hfeeds, Store.fileText, Json.parse_dump hwell] at hparse
  obtain rfl := Json.object.inj (Except.ok.inj hparse)
  obtain rfl := Option.some.inj hmembers
  obtain rfl := List.mem_singleton.mp hentry
  exact ⟨_, by decide, rfl⟩

end Tea

/-- A heading and a label that was shared before are found. -/
theorem extract_resolves_tea :
    let config := teaConfig "templates" "en_GB"
    let before := teaFiles "<h1>Tea</h1>"
    let after := afterExtraction config before
    let report : ExtractionReport := ⟨[.ofText "templates/en.json".toList], [],
      .ofText "locales/en.json".toList, 2⟩
    Config.ofValue ⟨[], []⟩ (teaSite "templates" "en_GB") = .ok config ∧
      (extract config []).Ends before report after ∧
      checkReferences config after =
        .ok [passed .keySurface "All template keys exist in the source dictionary".toList] := by
  intro config before after report
  have hconfig : Config.ofValue ⟨[], []⟩ (teaSite "templates" "en_GB") = .ok config := rfl
  have hrun : (extract config []).Ends before report after :=
    ends_after_extraction (by decide +kernel)
  have hgrows := grows_of_extract hrun
  have hready : AreReady config before (pagesToExtract config []) :=
    tea_is_ready (by decide) (by decide)
  have hraw : before.locate (.ofText "index.html".toList) =
      .ok ["work".toList, "index.html".toList] := rfl
  have htemplate : before.locate (.ofText "templates/en.json".toList) =
      .ok ["work".toList, "templates".toList, "en.json".toList] := rfl
  have hdictionary : before.locate (.ofText "locales/en.json".toList) =
      .ok ["work".toList, "locales".toList, "en.json".toList] := rfl
  have hapart : StandApart config after (pagesToExtract config []) := by
    constructor
    · intro page hpage other hother
      obtain rfl := List.mem_singleton.mp hpage
      obtain rfl := List.mem_singleton.mp hother
      exact not_lead_alike hgrows hraw htemplate (by decide)
    · intro page hpage
      obtain rfl := List.mem_singleton.mp hpage
      exact not_lead_alike hgrows htemplate hdictionary (by decide)
  obtain ⟨source, -, -, hchecked⟩ := extract_resolves hconfig rfl (List.nil_subset _) hready hapart
    (tea_shares_texts hgrows) hrun
  exact ⟨hconfig, hrun, hchecked fun page hpage ↦ .inl hpage⟩

/-- A template that is the file of the source dictionary ends as the dictionary, in whose header there
may be a reference to no text. -/
theorem extract_misses_header_reference :
    let config := teaConfig "locales" "\x7b\x7bt.a.b\x7d\x7d"
    let before := teaFiles "\x7b\x7d"
    let after := afterExtraction config before
    let report : ExtractionReport := ⟨[.ofText "locales/en.json".toList], [],
      .ofText "locales/en.json".toList, 0⟩
    Config.ofValue ⟨[], []⟩ (teaSite "locales" "\x7b\x7bt.a.b\x7d\x7d") = .ok config ∧
      config.vocabulary = .standard ∧
      AreReady config before (pagesToExtract config []) ∧
      (∀ page ∈ pagesToExtract config [], ∀ other ∈ pagesToExtract config [],
        ¬ LeadAlike after (config.authoredPath page) (config.templatePath other)) ∧
      SharesTexts config before after ∧
      (extract config []).Ends before report after ∧
      checkReferences config after = .ok [errorIn .keySurface "en.json".toList
        "en.json: \x7b\x7bt.a.b\x7d\x7d missing from source dictionary".toList] := by
  intro config before after report
  have hconfig : Config.ofValue ⟨[], []⟩ (teaSite "locales" "\x7b\x7bt.a.b\x7d\x7d") = .ok config := rfl
  have hrun : (extract config []).Ends before report after :=
    ends_after_extraction (by decide +kernel)
  have hgrows := grows_of_extract hrun
  have hraw : before.locate (.ofText "index.html".toList) =
      .ok ["work".toList, "index.html".toList] := rfl
  have hdictionary : before.locate (.ofText "locales/en.json".toList) =
      .ok ["work".toList, "locales".toList, "en.json".toList] := rfl
  refine ⟨hconfig, rfl, tea_is_ready (by decide) (by decide), ?_, tea_shares_texts hgrows, hrun, ?_⟩
  · intro page hpage other hother
    obtain rfl := List.mem_singleton.mp hpage
    obtain rfl := List.mem_singleton.mp hother
    exact not_lead_alike hgrows hraw hdictionary (by decide)
  · decide +kernel

end Site

end LocalizedSite
