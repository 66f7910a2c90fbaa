import LocalizedSite.Proofs.Render.SitemapDocument
import LocalizedSite.Proofs.Site.Isolation
import LocalizedSite.Proofs.Verify.PageLinks

/-!
# A built sitemap passes its check

The sitemap of a build is read back as it was meant. If no locale is left out and there is a home page, the
check of the sitemap counts the locales that were built, and passes (`built_sitemap_passes`).
-/

namespace LocalizedSite

namespace Verify

open Html Render

variable {config : Config} {codes : List Text} {requested : List Locale} {today : Text}
  {before after : FileTree} {report : Site.BuildReport} {index : Page}

/-- The texts that a sitemap is made of have no carriage returns. -/
structure HasNoReturns (config : Config) (today : Text) : Prop where
  address : '\r' ∉ config.baseUrl
  source : '\r' ∉ config.source.pathPrefix
  locales : ∀ entry ∈ config.locales, '\r' ∉ entry.2.pathPrefix ∧ '\r' ∉ entry.2.hreflang
  pages : ∀ page ∈ config.pages, '\r' ∉ page.output
  today : '\r' ∉ today

/-- The address of a page has no carriage return, if the prefix of the locale has none. -/
theorem return_not_mem_url (h : HasNoReturns config today) {page : Page} (hpage : page ∈ config.pages)
    {locale : Locale} (hlocale : '\r' ∉ locale.pathPrefix) :
    '\r' ∉ config.registry.pageUrl page locale := by
  have haddress : '\r' ∉ config.registry.baseUrl := by
    intro hmem
    have hmem := List.mem_reverse.mp hmem
    exact h.address (List.mem_reverse.mp ((List.dropWhile_sublist _).subset hmem))
  have hpath : '\r' ∉ page.urlPath := fun hmem ↦ h.pages page hpage (page.url_path_isPrefix.subset hmem)
  exact List.not_mem_append (List.not_mem_append haddress
    (List.not_mem_cons_of_ne_of_not_mem (by decide) hlocale)) hpath

/-- The entries of a sitemap have no carriage returns. -/
theorem entry_has_no_returns (h : HasNoReturns config today) {page : Page} (hpage : page ∈ config.pages)
    {locale : Locale} (hlocale : '\r' ∉ locale.pathPrefix) :
    (sitemapEntry config.registry config.hiddenPages today page locale).HasNoReturns where
  location := return_not_mem_url h hpage hlocale
  lastChange := h.today
  frequency := by
    show '\r' ∉ changeFrequency page
    unfold changeFrequency
    split <;> decide
  priority := by
    show '\r' ∉ Render.priority page _
    unfold Render.priority
    split_ifs <;> decide
  alternates := by
    intro alternate hmem
    rcases List.mem_append.mp hmem with hversion | hdefault
    · obtain ⟨other, hother, rfl⟩ := List.mem_map.mp hversion
      obtain ⟨entry, hentry, rfl⟩ := List.mem_map.mp hother
      obtain ⟨hfront, hlanguage⟩ := h.locales entry hentry
      exact ⟨hlanguage, return_not_mem_url h hpage hfront⟩
    · obtain rfl := List.mem_singleton.mp hdefault
      exact ⟨(by decide : '\r' ∉ defaultLanguage), return_not_mem_url h hpage h.source⟩

/-- An entry of a sitemap links to the versions of its page. -/
theorem is_bare_eq_false (registry : Registry) (hiddenPages : List Text) (page : Page) (locale : Locale) :
    isBare (sitemapEntry registry hiddenPages today page locale).element = false := by
  have hlink : versionElement ⟨defaultLanguage, registry.defaultUrl page⟩ ∈
      elementsOf (sitemapEntry registry hiddenPages today page locale).nodes := by
    rw [elements_entry]
    exact List.mem_append_right _ (List.mem_map_of_mem (List.mem_append_right _ (List.mem_singleton_self _)))
  have hany : ((elementsOf (sitemapEntry registry hiddenPages today page locale).nodes).any
      fun element ↦ element.named "xhtml:link") = true :=
    List.any_eq_true.mpr ⟨_, hlink, rfl⟩
  unfold isBare
  exact congrArg not hany

/-- The number of entries of a sitemap. -/
theorem length_sitemap_entries (registry : Registry) (hiddenPages : List Text) (today : Text)
    (pages : List Page) (locales : List Locale) :
    (sitemapEntries registry hiddenPages today pages locales).length = pages.length * locales.length := by
  unfold sitemapEntries
  induction pages with
  | nil => simp
  | cons page pages ih =>
      rw [List.flatMap_cons, List.length_append, List.length_map, ih, List.length_cons, Nat.succ_mul,
        Nat.add_comm]

/-- A build that leaves out no locale writes the home page of each of them. -/
theorem has_index_of_publishes {dictionaries : Entries Dictionary}
    {cleaned written filed copied mapped : FileTree}
    (h : Site.Publishes config requested dictionaries today before cleaned written filed copied mapped
      report after)
    (hskipped : (Site.withDictionary dictionaries requested).map Prod.fst = requested)
    (hindex : index ∈ config.pages) (houtput : index.output = Page.indexName)
    (htemplate : index.key ∉ report.missingTemplates) {locale : Locale} (hlocale : locale ∈ requested) :
    hasIndex config after locale = true := by
  rw [← hskipped] at hlocale
  obtain ⟨⟨found, dictionary⟩, hwith, rfl⟩ := List.mem_map.mp hlocale
  obtain ⟨hfound, hget⟩ : found ∈ requested ∧
      Entries.get? dictionaries found.code = some dictionary := by
    obtain ⟨other, hother, hentry⟩ := List.mem_filterMap.mp hwith
    obtain ⟨held, hheld, heq⟩ := Option.map_eq_some_iff.mp hentry
    obtain ⟨rfl, rfl⟩ := Prod.mk.inj heq
    exact ⟨hother, hheld⟩
  have hread : ∃ template, Site.template? config cleaned index = some template := by
    refine Option.ne_none_iff_exists'.mp fun hnone ↦ htemplate ?_
    rw [h.missing]
    exact List.mem_map_of_mem (List.mem_filter.mpr ⟨hindex, by rw [hnone]; rfl⟩)
  obtain ⟨template, htemplate⟩ := hread
  have hbuilt := h.is_file (h.pages ▸ Site.mem_built_pages.mpr
    ⟨found, hfound, dictionary, hget, index, hindex, template, htemplate, rfl⟩)
  unfold hasIndex
  rw [← houtput]
  exact hbuilt

/-- The check of a sitemap passes if every locale has a home page, every entry links to versions, and there
are as many entries as these locales have pages. -/
theorem check_sitemap_passes {text : Text} {document : List Node}
    (hread : after.readText (outputFile config Site.sitemapName) = .ok text)
    (hdocument : document? text = some document)
    (hindexed : requested.filter (hasIndex config after) = requested)
    (hlength : (entriesOf document).length = config.pages.length * requested.length)
    (hbare : (entriesOf document).filter isBare = []) :
    ∃ findings, checkSitemap config after requested = .ok findings ∧
      findings.head? = some (passed .sitemap ("Sitemap: ".toList ++
        counted (config.pages.length * requested.length) " URLs (" ++
        counted config.pages.length " pages x " ++ counted requested.length " locales)")) ∧
      ∀ finding ∈ findings, finding.severity = .pass := by
  have hcheck : checkSitemap config after requested = .ok
      (checkEntryCount (config.pages.length * requested.length) config.pages.length requested.length ::
        checkEntries (entriesOf document)) := by
    have hfile := FileTree.is_file_of_read_text hread
    have hparse : parseDocument text = .ok document := by
      unfold parseDocument
      rw [hdocument]
    unfold checkSitemap readText
    simp only [hfile, hread, hindexed, Except.mapError, Bool.not_true, Bool.false_eq_true, if_false]
    show (parseDocument text >>= _) = _
    rw [hparse, ← hlength]
    rfl
  have hpass : ∀ finding ∈ checkEntries (entriesOf document), finding.severity = .pass := by
    unfold checkEntries
    rw [hbare]
    intro finding hfinding
    simp only [List.isEmpty_nil, if_true] at hfinding
    split at hfinding
    · exact absurd hfinding List.not_mem_nil
    · rw [List.mem_singleton.mp hfinding]
      rfl
  have hcounted : checkEntryCount (config.pages.length * requested.length) config.pages.length
      requested.length = passed .sitemap ("Sitemap: ".toList ++
        counted (config.pages.length * requested.length) " URLs (" ++
        counted config.pages.length " pages x " ++ counted requested.length " locales)") := by
    unfold checkEntryCount
    simp only [if_true]
  refine ⟨_, hcheck, congrArg some hcounted, List.forall_mem_cons.mpr ⟨?_, hpass⟩⟩
  rw [hcounted]
  rfl

/-- The sitemap of a build that leaves out no locale is read back as it was meant: it has an entry for every
page in every locale, the pages outermost, with the address of the page and the links to all its versions.
If the home page was built, the check of the sitemap counts these entries and finds nothing wrong. -/
theorem built_sitemap_passes (hrequested : config.selectLocales codes = .ok requested)
    (h : (Site.build config codes today).Ends before report after) (hskipped : report.skippedLocales = [])
    (hindex : index ∈ config.pages) (houtput : index.output = Page.indexName)
    (htemplate : index.key ∉ report.missingTemplates) (hreturns : HasNoReturns config today) :
    report.locales = requested.map Locale.code ∧
      ∃ text document findings, after.readText (outputFile config Site.sitemapName) = .ok text ∧
        document? text = some document ∧
        (entriesOf document).length = config.pages.length * requested.length ∧
        (entriesOf document).map readEntry? = (config.pages.flatMap fun page ↦
          requested.map fun locale ↦ some ⟨config.registry.pageUrl page locale, today, changeFrequency page,
            priority page (config.hiddenPages.contains page.key), config.registry.alternates page⟩) ∧
        checkSitemap config after requested = .ok findings ∧
        findings.head? = some (passed .sitemap ("Sitemap: ".toList ++
          counted (config.pages.length * requested.length) " URLs (" ++
          counted config.pages.length " pages x " ++ counted requested.length " locales)")) ∧
        ∀ finding ∈ findings, finding.severity = .pass := by
  obtain ⟨dictionaries, -, hpublish⟩ := Site.ends_of_build hrequested h
  obtain ⟨cleaned, written, filed, copied, mapped, hdone⟩ := Site.ends_of_publish hpublish
  have hbuilt : (Site.withDictionary dictionaries requested).map Prod.fst = requested :=
    Site.built_of_none_skipped (List.map_eq_nil_iff.mp (hdone.skipped.symm.trans hskipped))
  set entries := sitemapEntries config.registry config.hiddenPages today config.pages requested with hentries
  have hmember {entry : SitemapEntry} (hentry : entry ∈ entries) : ∃ page ∈ config.pages,
      ∃ locale ∈ requested, sitemapEntry config.registry config.hiddenPages today page locale = entry := by
    obtain ⟨page, hpage, hentry⟩ := List.mem_flatMap.mp hentry
    exact ⟨page, hpage, List.mem_map.mp hentry⟩
  -- The sitemap is read as it was written, since it has no carriage returns.
  have hplain : ∀ entry ∈ entries, entry.HasNoReturns := by
    intro entry hentry
    obtain ⟨page, hpage, locale, hlocale, rfl⟩ := hmember hentry
    obtain ⟨found, hfound, rfl⟩ := Site.mem_locales_of_select hrequested hlocale
    exact entry_has_no_returns hreturns hpage (hreturns.locales found hfound).1
  have hread := hdone.read_sitemap
  rw [hbuilt, Site.sitemapFor, ← hentries, Store.line_feeds_eq (return_not_mem_sitemap hplain)] at hread
  -- The check counts the locales with a home page, and these are all; and every entry has links.
  have hindexed : requested.filter (hasIndex config after) = requested :=
    List.filter_eq_self.mpr fun locale hlocale ↦
      has_index_of_publishes hdone hbuilt hindex houtput htemplate hlocale
  have hlength : (entriesOf (sitemapNodes entries)).length = config.pages.length * requested.length := by
    rw [entries_of_sitemap, List.length_map, hentries, length_sitemap_entries]
  have hbare : (entriesOf (sitemapNodes entries)).filter isBare = [] := by
    rw [entries_of_sitemap, List.filter_eq_nil_iff]
    intro element helement
    obtain ⟨entry, hentry, rfl⟩ := List.mem_map.mp helement
    obtain ⟨page, -, locale, -, rfl⟩ := hmember hentry
    exact Bool.eq_false_iff.mp (is_bare_eq_false config.registry config.hiddenPages page locale)
  obtain ⟨findings, hcheck, hcounted, hpass⟩ :=
    check_sitemap_passes hread (document_sitemap entries) hindexed hlength hbare
  refine ⟨by rw [hdone.locales, hbuilt], _, _, findings, hread, document_sitemap entries, hlength, ?_, hcheck,
    hcounted, hpass⟩
  rw [entries_of_sitemap, List.map_map, hentries, sitemapEntries, List.map_flatMap]
  refine List.flatMap_congr fun page _ ↦ ?_
  rw [List.map_map]
  exact List.map_congr_left fun locale _ ↦ read_entry _

/-- Two pages in two locales are four entries, also if the address of the site and the German prefix have
characters that mean something in markup. -/
theorem built_sitemap_passes_teas :
    let english : Locale := ⟨"en".toList, [], "en_GB".toList, "en".toList, "en".toList,
      "English".toList, [], none, []⟩
    let german : Locale := ⟨"de".toList, "d<e/".toList, "de_DE".toList, "de".toList, "\"de\"".toList,
      "Deutsch".toList, [], none, []⟩
    let home : Page := ⟨"home".toList, "index.html".toList, "index.html".toList, none⟩
    let teas : Page := ⟨"teas".toList, "teas.html".toList, "teas.html".toList, none⟩
    let config : Config :=
      { baseUrl := "https://tea&milk".toList, brandName := [], source := english,
        locales := [("en".toList, english), ("de".toList, german)], pages := [home, teas],
        vocabulary := ⟨[], [], [], [], [], [], [], []⟩, sourceDirectory := FilePath.ofText ".".toList,
        templatesDirectory := FilePath.ofText "templates".toList,
        localesDirectory := FilePath.ofText "locales".toList,
        outputDirectory := FilePath.ofText "dist".toList, staticFiles := [], staticDirectories := [],
        hiddenPages := [], exemptPages := [], translation := .standard }
    let below (names : List String) : Location := "work".toList :: names.map String.toList
    let dictionary : FileNode := .file (.text "\x7b\x7d".toList)
    let tree : FileTree := ⟨below [], [(below [], .directory), (below ["templates"], .directory),
      (below ["locales"], .directory), (below ["templates", "index.html"], .file (.text "Teas".toList)),
      (below ["locales", "en.json"], dictionary), (below ["locales", "de.json"], dictionary)]⟩
    ∃ report after findings, (Site.build config [] "2025-06-01".toList).Ends tree report after ∧
      checkSitemap config after [english, german] = .ok findings ∧
      findings.head? = some (passed .sitemap "Sitemap: 4 URLs (2 pages x 2 locales)".toList) ∧
      ∀ finding ∈ findings, finding.severity = .pass := by
  intro english german home teas config below dictionary tree
  have hrequested : config.selectLocales [] = .ok [english, german] := by decide +kernel
  have hreturns : HasNoReturns config "2025-06-01".toList :=
    ⟨by decide, by decide, by decide, by decide, by decide⟩
  obtain ⟨report, after, hends⟩ := SiteAction.ends_of_some
    (by decide +kernel : ((Site.build config [] "2025-06-01".toList).run.run tree).1.toOption.isSome = true)
  have hreport : ((Site.build config [] "2025-06-01".toList).run.run tree).1.toOption.map
      (fun report ↦ (report.skippedLocales, report.missingTemplates)) = some ([], ["teas".toList]) := by
    decide +kernel
  rw [hends] at hreport
  obtain ⟨hskipped, hmissing⟩ := Prod.mk.inj (Option.some.inj hreport)
  obtain ⟨-, _, _, findings, -, -, -, -, hcheck, hcounted, hpass⟩ :=
    built_sitemap_passes hrequested hends hskipped (List.mem_cons_self ..) rfl
      (hmissing ▸ by decide) hreturns
  exact ⟨report, after, findings, hends, hcheck,
    hcounted.trans (congrArg some (congrArg (passed .sitemap) (by decide +kernel))), hpass⟩

end Verify

end LocalizedSite
