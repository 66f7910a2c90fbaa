import LocalizedSite.Proofs.Dictionary.Apart
import LocalizedSite.Proofs.Dictionary.Merged
import LocalizedSite.Proofs.Site.Outcomes

/-!
# Extracting a site again

An extraction that is run once more right away changes no file (`extract_again`), if what it wrote are no
authored pages and it has not opened the way to files that it did not find itself. The pages come to the
same (`comes_again`), the texts are merged into what they were merged into or into the merged dictionary
itself (`merge_read_again`), and merging texts twice is merging them once.
-/

namespace LocalizedSite

namespace Site

open Dictionary Extract FileTree SiteAction

variable {config : Config} {before current after next : FileTree} {named pages : List Page}
  {report : ExtractionReport} {outcomes : List (Page × Option Extraction)} {places : Location → Prop}

section Pages

/-- When a page is dealt with it comes to something in the files of that moment, which differ from those
at the end at the places of templates only. -/
theorem Extracts.outcome (h : Extracts config before outcomes after)
    {outcome : Page × Option Extraction} (hmem : outcome ∈ outcomes) :
    ∃ tree, Lasts before tree ∧ Lasts tree after ∧ ComesTo config tree outcome ∧
      ∀ place, (∀ write ∈ templateTexts config outcomes,
          write.1.spelt before.workingDirectory ≠ place) →
        ∀ content, after.node? place = some (.file content) ↔
          tree.node? place = some (.file content) := by
  have hhere {first : FileTree} {others : List (Page × Option Extraction)}
      (hwritten : Written first (templateTexts config others) after) (place : Location)
      (hplace : ∀ write ∈ templateTexts config others,
        write.1.spelt first.workingDirectory ≠ place) (content : Content) :
      after.node? place = some (.file content) ↔ first.node? place = some (.file content) := by
    rw [hwritten.file_iff, nodeAfter?, last_text_none hplace]
  induction h with
  | none tree => exact absurd hmem List.not_mem_nil
  | @skip before after page others hcomes hothers ih =>
      have hwritten : Written before (templateTexts config ((page, .none) :: others)) after :=
        (Extracts.skip hcomes hothers).written
      rcases List.mem_cons.mp hmem with rfl | hlater
      · exact ⟨before, .refl before, hwritten.lasts, hcomes, hhere hwritten⟩
      · exact ih hlater hhere
  | @take before between after page extraction others hcomes hwrite hothers ih =>
      have hwritten : Written before (templateTexts config ((page, some extraction) :: others)) after :=
        (Extracts.take hcomes hwrite hothers).written
      rcases List.mem_cons.mp hmem with rfl | hlater
      · exact ⟨before, .refl before, hwritten.lasts, hcomes, hhere hwritten⟩
      · obtain ⟨tree, hfirst, hlast, hlater, hfiles⟩ := ih hlater hhere
        refine ⟨tree, (lasts_of_write_making hwrite).trans hfirst, hlast, hlater,
          fun place hplace ↦ hfiles place fun write hwrites ↦ ?_⟩
        rw [(grows_of_write_making hwrite).workingDirectory]
        exact hplace write (List.mem_cons_of_mem _ hwrites)

/-- Pages that come to the same as before are extracted once more, and the templates are written where
they stand. -/
theorem Extracts.again (h : Extracts config before outcomes current) (hlasts : Lasts current next)
    (hplaces : ∀ write ∈ templateTexts config outcomes,
      places (write.1.spelt next.workingDirectory))
    (hcomes : ∀ tree, AgreeOutside places next tree → ∀ outcome ∈ outcomes,
      ComesTo config tree outcome) : ∃ final, Extracts config next outcomes final := by
  induction h generalizing next with
  | none tree => exact ⟨next, .none next⟩
  | skip _ _ ih =>
      obtain ⟨final, hfinal⟩ := ih hlasts hplaces fun tree hagree outcome hmem ↦
        hcomes tree hagree outcome (List.mem_cons_of_mem _ hmem)
      exact ⟨final, .skip (hcomes next (.refl next) _ (List.mem_cons_self ..)) hfinal⟩
  | @take _ _ _ page extraction _ _ hwrite hothers ih =>
      obtain ⟨⟨held, hheld⟩, hagain⟩ := write_making_there hwrite
        (hothers.written.lasts.trans hlasts) (.text extraction.template)
      have hset : AgreeOutside places next (next.setNode _ (.file (.text extraction.template))) :=
        (agree_of_set_file hheld).mono fun location heq ↦ heq ▸ hplaces _ (List.mem_cons_self ..)
      obtain ⟨final, hfinal⟩ := ih (hlasts.trans (lasts_of_write_making hagain))
        (fun write hmem ↦ hplaces write (List.mem_cons_of_mem _ hmem))
        fun tree hagree outcome hmem ↦
          hcomes tree (hset.trans hagree) outcome (List.mem_cons_of_mem _ hmem)
      exact ⟨final, .take (hcomes next (.refl next) _ (List.mem_cons_self ..)) hagain hfinal⟩

end Pages

/-- What an extraction has written are no authored pages, and it has not opened the way to a file that it
did not find itself. -/
structure AreUntouched (config : Config) (before after : FileTree) (pages : List Page)
    (report : ExtractionReport) : Prop where
  /-- An authored page is no template that was written. -/
  templates : ∀ page ∈ pages, after.isFile (config.authoredPath page) = true →
    ∀ template ∈ report.templates, ¬ LeadAlike after (config.authoredPath page) template
  /-- An authored page is not the source dictionary. -/
  dictionary : ∀ page ∈ pages, after.isFile (config.authoredPath page) = true →
    ¬ LeadAlike after (config.authoredPath page) report.dictionary
  /-- A page that was skipped still has no authored file. -/
  skipped : ∀ page ∈ pages, page.key ∈ report.skipped →
    after.isFile (config.authoredPath page) = false
  /-- A template that is the file of the dictionary was read as the dictionary. -/
  shared : ∀ template ∈ report.templates, LeadAlike after template report.dictionary →
    ∀ done current, (pages.foldlM (extractPage config) ⟨[], [], []⟩).Ends before done current →
      ∃ place, current.locate report.dictionary = .ok place

section Again

/-- A template that was written stands where its path leads in the end. -/
theorem lead_template (hextracts : Extracts config before outcomes current) (hgrows : current.Grows after)
    {write : FilePath × Text} (hmem : write ∈ templateTexts config outcomes) :
    after.locate write.1 = .ok (write.1.spelt before.workingDirectory) := by
  obtain ⟨place, held, hlocate, -⟩ := hextracts.written.file_of_mem hmem
  rw [← hextracts.written.lasts.grows.workingDirectory, ← locate_eq_spelt hlocate]
  exact locate_of_grows hgrows hlocate

/-- Every page comes to the same once more, whatever stands where the templates are. -/
theorem comes_again {content : Content} (hextracts : Extracts config before outcomes current)
    (hwrite : current.writeMaking report.dictionary content = .ok after)
    (htemplates : report.templates = (templateTexts config outcomes).map Prod.fst)
    (hskipped : report.skipped = (collected config outcomes).skipped)
    (huntouched : AreUntouched config before after (outcomes.map Prod.fst) report)
    (hagree : AgreeOutside (fun place ↦ ∃ write ∈ templateTexts config outcomes,
      write.1.spelt before.workingDirectory = place) after next)
    {outcome : Page × Option Extraction} (hmem : outcome ∈ outcomes) :
    ComesTo config next outcome := by
  have hlasts := lasts_of_write_making hwrite
  have hpage : outcome.1 ∈ outcomes.map Prod.fst := List.mem_map.mpr ⟨outcome, hmem, rfl⟩
  obtain ⟨page, _ | extraction⟩ := outcome
  · have hnone := huntouched.skipped page hpage (hskipped ▸ mem_collected_skipped hmem)
    show next.isFile (config.authoredPath page) = false
    by_contra hfound
    rw [Bool.not_eq_false] at hfound
    obtain ⟨place, held, hlocate, hplace⟩ := exists_place_of_is_file hfound
    have hafter := hagree.locate.mp hlocate
    -- a file stands there in the end too, be it a template or not
    have hfile : ∃ kept, after.node? place = some (.file kept) := by
      by_cases htemplate : ∃ write ∈ templateTexts config outcomes,
          write.1.spelt before.workingDirectory = place
      · obtain ⟨write, hwrites, rfl⟩ := htemplate
        obtain ⟨found, kept, hfound, hkept⟩ := hextracts.written.file_of_mem hwrites
        obtain rfl : found = _ := Except.ok.inj ((locate_of_grows hlasts.grows hfound).symm.trans
          (lead_template hextracts hlasts.grows hwrites))
        exact hlasts.files _ kept hkept
      · exact ⟨held, (hagree.outside place htemplate).symm.trans hplace⟩
    obtain ⟨kept, hkept⟩ := hfile
    have hthere : after.isFile (config.authoredPath page) = true := by
      simp only [isFile, at?, hafter, hkept]
    rw [hnone] at hthere
    exact absurd hthere (by decide)
  · obtain ⟨tree, -, hlast, ⟨html, hread, hextract⟩, hfiles⟩ := hextracts.outcome hmem
    obtain ⟨place, found, hlocate, hplace, -⟩ := file_of_read_text hread
    have hafter := locate_of_grows (hlast.grows.trans hlasts.grows) hlocate
    have hthere : tree.isFile (config.authoredPath page) = true := by
      simp only [isFile, at?, hlocate, hplace]
    have hfile := hlasts.is_file (hlast.is_file hthere)
    have htemplate : ∀ write ∈ templateTexts config outcomes,
        write.1.spelt before.workingDirectory ≠ place := by
      rintro write hwrites rfl
      exact huntouched.templates page hpage hfile write.1
        (htemplates ▸ List.mem_map.mpr ⟨write, hwrites, rfl⟩)
        ⟨_, hafter, lead_template hextracts hlasts.grows hwrites⟩
    obtain ⟨last, hdictionary, -⟩ := node_of_write_making hwrite
    have hne : place ≠ last := by
      rintro rfl
      exact huntouched.dictionary page hpage hfile ⟨place, hafter, hdictionary⟩
    have hcurrent := (hfiles place htemplate _).mpr hplace
    have hend := (file_elsewhere hwrite hdictionary hne _).mpr hcurrent
    have hnext : next.node? place = after.node? place := by
      refine hagree.outside place ?_
      rintro ⟨write, hwrites, heq⟩
      exact htemplate write hwrites heq
    refine ⟨html, ?_, hextract⟩
    rw [← hread]
    refine read_text_congr hlocate (hagree.locate.mpr hafter) ?_
    rw [hnext, hend, hplace]

/-- The dictionary that is read once more gives the same merged dictionary: it is the one that was read
before, if the file is that of a template, and otherwise it is the merged one. -/
theorem merge_read_again {existing : Dictionary} {texts : Entries PageTexts}
    (hextracts : Extracts config before outcomes current) (hpages : outcomes.map Prod.fst = pages)
    (htemplates : report.templates = (templateTexts config outcomes).map Prod.fst)
    (hdictionary : report.dictionary = dictionaryPath config)
    (hread : config.store.read current config.source.code = .ok existing)
    (hwrite : config.store.writeFile current config.source.code
      (merge existing texts config.source.header config.pageKeys) = .ok after)
    (huntouched : AreUntouched config before after pages report) (hlasts : Lasts after next)
    (hnodes : ∀ place, next.node? place = nodeAfter? after (templateTexts config outcomes) place) :
    ∃ other, config.store.read next config.source.code = .ok other ∧
      merge other texts config.source.header config.pageKeys =
        merge existing texts config.source.header config.pageKeys := by
  have hwell := Store.read_well_formed hread
  have hgrows : current.Grows after := grows_of_write_making hwrite
  have hstart : after.workingDirectory = before.workingDirectory :=
    hgrows.workingDirectory.trans hextracts.written.lasts.grows.workingDirectory
  obtain ⟨place, hlocate, hplace⟩ := node_of_write_making hwrite
  have hnext := locate_of_grows hlasts.grows hlocate
  cases hlast : lastText? before.workingDirectory (templateTexts config outcomes) place with
  | some text =>
      obtain ⟨write, hmem, hspelt⟩ : ∃ write ∈ templateTexts config outcomes,
          write.1.spelt before.workingDirectory = place := by
        by_contra hnone
        rw [last_text_none fun write hmem heq ↦ hnone ⟨write, hmem, heq⟩] at hlast
        exact absurd hlast (by simp)
      have halike : LeadAlike after write.1 report.dictionary := by
        refine ⟨place, ?_, hdictionary ▸ hlocate⟩
        rw [lead_template hextracts hgrows hmem, hspelt]
      obtain ⟨found, hcurrent⟩ := huntouched.shared write.1
        (htemplates ▸ List.mem_map.mpr ⟨write, hmem, rfl⟩) halike _ current
        (ends_pages_iff.mpr ⟨outcomes, hpages, hextracts, rfl⟩)
      rw [hdictionary] at hcurrent
      obtain rfl : found = place :=
        Except.ok.inj ((locate_of_grows hgrows hcurrent).symm.trans hlocate)
      have hthere : current.node? found = some (.file (.text text)) := by
        rw [hextracts.written.file_iff, nodeAfter?, hlast]
      have hsame : next.node? found = current.node? found := by
        rw [hnodes, nodeAfter?, hstart, hlast, hthere]
      exact ⟨existing, by rw [Store.read_congr hcurrent hnext hsame, hread], rfl⟩
  | none =>
      have hsame : next.node? place = after.node? place := by
        rw [hnodes, nodeAfter?, hstart, hlast]
      have hmerged := Store.read_of_write_file
        (merge_well_formed hwell (header_well_formed config.source) texts config.pageKeys) hwrite
      refine ⟨_, (Store.read_congr hlocate hnext hsame).trans hmerged, ?_⟩
      have hdistinct := scopes_to_merge_well_formed hwell
      cases hwell with
      | object hnames hvalues => exact merge_again hnames hdistinct.distinct

/-- An extraction that is run once more right away has the same result and changes no file, if what it
wrote are no authored pages, and if it has not opened the way to what it finds. -/
theorem extract_again (hrun : (extract config named).Ends before report after)
    (huntouched : AreUntouched config before after (pagesToExtract config named) report) :
    ∃ again, (extract config named).Ends after report again ∧ Alike after again := by
  obtain ⟨outcomes, current, existing, hnames, hextracts, hread, hwrite, hreport⟩ :=
    ends_extract_iff.mp hrun
  obtain ⟨merged, hmerged⟩ : ∃ merged, merged = merge existing (collected config outcomes).texts
    config.source.header config.pageKeys := ⟨_, rfl⟩
  rw [← hmerged] at hwrite hreport
  have htemplates : report.templates = (templateTexts config outcomes).map Prod.fst := by
    rw [hreport, collected_templates]
  have hskipped : report.skipped = (collected config outcomes).skipped := by rw [hreport]
  have hdictionary : report.dictionary = dictionaryPath config := by rw [hreport]
  have hwriting : current.writeMaking report.dictionary (.text (Store.fileText (.object merged))) =
      .ok after := by
    rw [hdictionary]
    exact hwrite
  have hlasts : Lasts current after := lasts_of_write_making hwrite
  have hstart : after.workingDirectory = before.workingDirectory :=
    hlasts.grows.workingDirectory.trans hextracts.written.lasts.grows.workingDirectory
  -- the pages are extracted into the templates that are there
  obtain ⟨final, hagain⟩ := hextracts.again hlasts
    (fun write hmem ↦ ⟨write, hmem, by rw [hstart]⟩)
    fun tree hagree outcome hmem ↦
      comes_again hextracts hwriting htemplates hskipped (hnames ▸ huntouched) hagree hmem
  obtain ⟨_, hwritten, -, hnodes⟩ := hextracts.written.again hlasts
  obtain rfl := hagain.written.unique hwritten
  -- and the dictionary is written over the one that is there
  obtain ⟨other, hother, hmerge⟩ := merge_read_again hextracts hnames htemplates hdictionary
    hread (hmerged ▸ hwrite) huntouched hagain.written.lasts hnodes
  rw [← hmerged] at hmerge
  obtain ⟨⟨held, hheld⟩, hsaved⟩ := write_making_there hwrite hagain.written.lasts
    (.text (Store.fileText (.object merged)))
  refine ⟨_, ends_extract_iff.mpr ⟨outcomes, final, other, hnames, hagain, hother, ?_, ?_⟩,
    alike_of_written_again hextracts.written hwriting hagain.written.lasts hnodes⟩
  · rw [hmerge, hdictionary]
    exact hsaved
  · rw [hmerge, hreport]

/-- A heading and a label that was shared before stay as they are. -/
theorem extract_again_tea :
    let config := teaConfig "templates" "en_GB"
    let before := teaFiles "<h1>Tea</h1>"
    let after := afterExtraction config before
    let report : ExtractionReport := ⟨[.ofText "templates/en.json".toList], [],
      .ofText "locales/en.json".toList, 2⟩
    (extract config []).Ends before report after ∧
      AreUntouched config before after (pagesToExtract config []) report ∧
      ∃ again, (extract config []).Ends after report again ∧ Alike after again := by
  intro config before after report
  have hrun : (extract config []).Ends before report after :=
    ends_after_extraction (by decide +kernel)
  have hgrows := grows_of_extract hrun
  have hraw : before.locate (.ofText "index.html".toList) =
      .ok ["work".toList, "index.html".toList] := rfl
  have htemplate : before.locate (.ofText "templates/en.json".toList) =
      .ok ["work".toList, "templates".toList, "en.json".toList] := rfl
  have hdictionary : before.locate (.ofText "locales/en.json".toList) =
      .ok ["work".toList, "locales".toList, "en.json".toList] := rfl
  have huntouched : AreUntouched config before after (pagesToExtract config []) report := by
    refine ⟨fun page hpage _ template hmem ↦ ?_, fun page hpage _ ↦ ?_,
      fun page _ hmem ↦ absurd hmem List.not_mem_nil, fun template hmem halike ↦ ?_⟩
    · obtain rfl := List.mem_singleton.mp hpage
      obtain rfl := List.mem_singleton.mp hmem
      exact not_lead_alike hgrows hraw htemplate (by decide)
    · obtain rfl := List.mem_singleton.mp hpage
      exact not_lead_alike hgrows hraw hdictionary (by decide)
    · obtain rfl := List.mem_singleton.mp hmem
      exact absurd halike (not_lead_alike hgrows htemplate hdictionary (by decide))
  exact ⟨hrun, huntouched, extract_again hrun huntouched⟩

/-- An extraction may open the way to a page, which is extracted the second time only, and to a
dictionary, which the second time is a template. -/
theorem extract_again_opened :
    (let config := pairConfig "build" "build/../about.html"
      let before := pairFiles (.text "<h1>Tea</h1>".toList)
      let after := afterExtraction config before
      let again := afterExtraction config after
      let first : ExtractionReport := ⟨[.ofText "build/index.html".toList], ["about".toList],
        .ofText "locales/en.json".toList, 1⟩
      let second : ExtractionReport := ⟨[.ofText "build/about.html".toList,
        .ofText "build/index.html".toList], [], .ofText "locales/en.json".toList, 2⟩
      (extract config []).Ends before first after ∧ (extract config []).Ends after second again ∧
        (∀ page ∈ config.pages, ∀ written ∈ first.dictionary :: first.templates,
          after.locate (config.authoredPath page) ≠ after.locate written) ∧
        again.readText (dictionaryPath config) ≠ after.readText (dictionaryPath config)) ∧
    (let config : Config :=
        { teaConfig "out" "en_GB" with localesDirectory := .ofText "out/new/..".toList }
      let before := pairFiles (.text "<h1>Tea</h1>".toList)
      let after := afterExtraction config before
      let report : ExtractionReport := ⟨[.ofText "out/en.json".toList], [],
        .ofText "out/new/../en.json".toList, 1⟩
      (extract config []).Ends before report after ∧
        (∀ page ∈ config.pages, ∀ written ∈ report.dictionary :: report.templates,
          after.locate (config.authoredPath page) ≠ after.locate written) ∧
        ((extract config []).run.run after).1.toOption = none) := by
  constructor
  · intro config before after again first second
    obtain ⟨hfirst, hsecond, hother, hdiffers⟩ :
        ((extract config []).run.run before).1 = .ok first ∧
          ((extract config []).run.run after).1 = .ok second ∧
          (∀ page ∈ config.pages, ∀ written ∈ first.dictionary :: first.templates,
            after.locate (config.authoredPath page) ≠ after.locate written) ∧
          again.readText (dictionaryPath config) ≠ after.readText (dictionaryPath config) := by
      decide +kernel
    exact ⟨ends_after_extraction hfirst, ends_after_extraction hsecond, hother, hdiffers⟩
  · intro config before after report
    obtain ⟨hfirst, hother, hstops⟩ :
        ((extract config []).run.run before).1 = .ok report ∧
          (∀ page ∈ config.pages, ∀ written ∈ report.dictionary :: report.templates,
            after.locate (config.authoredPath page) ≠ after.locate written) ∧
          ((extract config []).run.run after).1.toOption = none := by
      decide +kernel
    exact ⟨ends_after_extraction hfirst, hother, hstops⟩

end Again

end Site

end LocalizedSite
