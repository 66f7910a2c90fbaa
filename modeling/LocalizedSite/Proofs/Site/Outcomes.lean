import LocalizedSite.Proofs.Files.Written
import LocalizedSite.Proofs.Site.KeySurface
import LocalizedSite.Proofs.Site.Writable

/-!
# What pages come to

An extraction goes through its pages one after another. Each comes to a template and texts, or to nothing
if it has no authored file (`ComesTo`), and the extraction is known from what its pages come to: the files that
it leaves behind and its report (`ends_pages_iff`, `ends_extract_iff`).
-/

namespace LocalizedSite

namespace SiteAction

variable {α : Type} {before after : FileTree} {result : α}

/-- Writing a text file that can be written. -/
theorem ends_write_text {path : FilePath} {text : Text}
    (h : before.writeMaking path (.text text) = .ok after) : (writeText path text).Ends before () after := by
  obtain ⟨made, hmade, hwrite⟩ := bind_eq_ok.mp h
  exact ends_bind (ends_change hmade) (ends_change hwrite)

/-- A value that is there is had. -/
theorem ends_value {ε : Type} {cause : ε → SiteFault} {value : Except ε α} (h : value = .ok result) :
    (ofExcept cause value).Ends before result before := by
  rw [h]
  rfl

end SiteAction

namespace Site

open Dictionary Extract FileTree SiteAction

variable {config : Config} {before after : FileTree} {page : Page} {done next : ExtractedPages}
  {outcomes : List (Page × Option Extraction)}

section Outcomes

/-- What a page comes to in some files: it is extracted, or it has no authored file. -/
def ComesTo (config : Config) (tree : FileTree) : Page × Option Extraction → Prop
  | (page, some extraction) => ExtractsTo config tree page extraction
  | (page, none) => tree.isFile (config.authoredPath page) = false

/-- The templates of pages with their paths, in order. -/
def templateTexts (config : Config) (outcomes : List (Page × Option Extraction)) :
    List (FilePath × Text) :=
  outcomes.filterMap fun (page, extraction) ↦
    extraction.map fun extraction ↦ (config.templatePath page, extraction.template)

/-- Pages come to something one after another, and the template of each is written at once. -/
inductive Extracts (config : Config) :
    FileTree → List (Page × Option Extraction) → FileTree → Prop
  | none (tree : FileTree) : Extracts config tree [] tree
  | skip {before after : FileTree} {page : Page} {others : List (Page × Option Extraction)}
      (hcomes : ComesTo config before (page, none)) (hothers : Extracts config before others after) :
      Extracts config before ((page, none) :: others) after
  | take {before between after : FileTree} {page : Page} {extraction : Extraction}
      {others : List (Page × Option Extraction)}
      (hcomes : ComesTo config before (page, some extraction))
      (hwrite : before.writeMaking (config.templatePath page) (.text extraction.template) = .ok between)
      (hothers : Extracts config between others after) :
      Extracts config before ((page, some extraction) :: others) after

/-- What was extracted with one more page. -/
def record (config : Config) (done : ExtractedPages) : Page × Option Extraction → ExtractedPages
  | (page, none) => { done with skipped := done.skipped ++ [page.key] }
  | (page, some extraction) => { done with
      templates := done.templates ++ [config.templatePath page]
      texts := Entries.put done.texts page.key (textsOf extraction) }

/-- The templates of pages are written one after another. -/
theorem Extracts.written (h : Extracts config before outcomes after) :
    Written before (templateTexts config outcomes) after := by
  induction h with
  | none tree => exact .none tree
  | skip _ _ ih => exact ih
  | take _ hwrite _ ih => exact .more hwrite ih

/-- A page is dealt with as it comes to something. -/
theorem ends_extract_page_iff : (extractPage config done page).Ends before next after ↔
    ∃ extraction, Extracts config before [(page, extraction)] after ∧
      next = record config done (page, extraction) := by
  constructor
  · intro h
    rcases ends_of_extract_page h with ⟨hnone, rfl, rfl⟩ | ⟨extraction, hextracts, hwrite, rfl⟩
    · exact ⟨none, .skip hnone (.none _), rfl⟩
    · exact ⟨some extraction, .take hextracts hwrite (.none _), rfl⟩
  · rintro ⟨extraction, h, rfl⟩
    unfold extractPage
    cases h with
    | skip hcomes hothers =>
        cases hothers
        have hnone : before.isFile (config.authoredPath page) = false := hcomes
        refine ends_bind (ends_look _) ?_
        rw [hnone]
        rfl
    | take hcomes hwrite hothers =>
        cases hothers
        obtain ⟨html, hread, hextract⟩ := hcomes
        obtain ⟨place, found, hlocate, hplace, -⟩ := file_of_read_text hread
        have hfile : before.isFile (config.authoredPath page) = true := by
          simp only [isFile, at?, hlocate, hplace]
        refine ends_bind (ends_look _) ?_
        rw [hfile]
        refine ends_bind (ends_read hread) ?_
        rw [hextract]
        exact ends_bind (ends_write_text hwrite) rfl

/-- Pages are dealt with as they come to something. -/
theorem ends_pages_iff {pages : List Page} :
    (pages.foldlM (extractPage config) done).Ends before next after ↔
      ∃ outcomes, outcomes.map Prod.fst = pages ∧ Extracts config before outcomes after ∧
        next = outcomes.foldl (record config) done := by
  induction pages generalizing done before with
  | nil =>
      constructor
      · intro h
        obtain ⟨rfl, rfl⟩ := ends_of_pure h
        exact ⟨[], rfl, .none _, rfl⟩
      · rintro ⟨outcomes, hpages, h, rfl⟩
        obtain rfl := List.map_eq_nil_iff.mp hpages
        cases h
        rfl
  | cons page pages ih =>
      rw [List.foldlM_cons]
      constructor
      · intro h
        obtain ⟨following, between, hfirst, hothers⟩ := ends_of_bind h
        obtain ⟨extraction, hextracts, rfl⟩ := ends_extract_page_iff.mp hfirst
        obtain ⟨outcomes, rfl, hrest, rfl⟩ := ih.mp hothers
        refine ⟨(page, extraction) :: outcomes, rfl, ?_, rfl⟩
        cases hextracts with
        | skip hcomes hnone =>
            cases hnone
            exact .skip hcomes hrest
        | take hcomes hwrite hnone =>
            cases hnone
            exact .take hcomes hwrite hrest
      · rintro ⟨outcomes, hpages, h, rfl⟩
        cases h with
        | none => exact absurd hpages (by simp)
        | skip hcomes hothers =>
            obtain ⟨rfl, rfl⟩ := List.cons.inj hpages
            exact ends_bind (ends_extract_page_iff.mpr ⟨none, .skip hcomes (.none _), rfl⟩)
              (ih.mpr ⟨_, rfl, hothers, rfl⟩)
        | take hcomes hwrite hothers =>
            obtain ⟨rfl, rfl⟩ := List.cons.inj hpages
            exact ends_bind (ends_extract_page_iff.mpr ⟨_, .take hcomes hwrite (.none _), rfl⟩)
              (ih.mpr ⟨_, rfl, hothers, rfl⟩)

end Outcomes

section Saving

/-- The texts are merged into the dictionary that is read, and the merged dictionary is written. -/
theorem ends_save_texts_iff {texts : Entries PageTexts} {merged : Dictionary} :
    (saveTexts config texts).Ends before merged after ↔
      ∃ existing, config.store.read before config.source.code = .ok existing ∧
        merged = merge existing texts config.source.header config.pageKeys ∧
        config.store.writeFile before config.source.code merged = .ok after := by
  refine ⟨ends_of_save_texts, ?_⟩
  rintro ⟨existing, hread, rfl, hwrite⟩
  have hsource : config.store.source before =
      .ok (existing, config.store.keep config.source.code existing) :=
    map_eq_ok.mpr ⟨existing, hread, rfl⟩
  obtain ⟨kept, hsave⟩ : ∃ kept, (config.store.keep config.source.code existing).save before
      config.source.code (merge existing texts config.source.header config.pageKeys) =
        .ok (after, kept) := ⟨_, map_eq_ok.mpr ⟨after, hwrite, rfl⟩⟩
  have hget : Ends get before before before := rfl
  unfold saveTexts
  refine ends_bind hget (ends_bind (ends_value hsource) (ends_bind hget ?_))
  exact ends_bind (ends_value hsave) rfl

end Saving

section Extraction

variable {named : List Page} {report : ExtractionReport}

/-- What was extracted when all pages have come to something. -/
def collected (config : Config) (outcomes : List (Page × Option Extraction)) : ExtractedPages :=
  outcomes.foldl (record config) ⟨[], [], []⟩

/-- The templates that are reported are those that were written. -/
theorem collected_templates (config : Config) (outcomes : List (Page × Option Extraction)) :
    (collected config outcomes).templates = (templateTexts config outcomes).map Prod.fst := by
  have hfold (done : ExtractedPages) : (outcomes.foldl (record config) done).templates =
      done.templates ++ (templateTexts config outcomes).map Prod.fst := by
    induction outcomes generalizing done with
    | nil => exact (List.append_nil _).symm
    | cons outcome outcomes ih =>
        rw [List.foldl_cons, ih]
        obtain ⟨page, _ | extraction⟩ := outcome
        · rfl
        · exact List.append_assoc ..
  exact hfold _

/-- A page without an authored file is reported as skipped. -/
theorem mem_collected_skipped {page : Page} (hmem : (page, none) ∈ outcomes) :
    page.key ∈ (collected config outcomes).skipped := by
  have hfold (done : ExtractedPages) : (outcomes.foldl (record config) done).skipped =
      done.skipped ++ (outcomes.filter (·.2.isNone)).map (·.1.key) := by
    clear hmem
    induction outcomes generalizing done with
    | nil => exact (List.append_nil _).symm
    | cons outcome outcomes ih =>
        rw [List.foldl_cons, ih]
        obtain ⟨page, _ | extraction⟩ := outcome
        · exact List.append_assoc ..
        · rfl
  rw [collected, hfold, List.nil_append]
  exact List.mem_map.mpr ⟨(page, none), List.mem_filter.mpr ⟨hmem, rfl⟩, rfl⟩

/-- An extraction ends when all pages have come to something and their texts are saved. -/
theorem ends_extract_iff : (extract config named).Ends before report after ↔
    ∃ outcomes current existing, outcomes.map Prod.fst = pagesToExtract config named ∧
      Extracts config before outcomes current ∧
      config.store.read current config.source.code = .ok existing ∧
      config.store.writeFile current config.source.code
        (merge existing (collected config outcomes).texts config.source.header config.pageKeys) =
          .ok after ∧
      report = ⟨(collected config outcomes).templates, (collected config outcomes).skipped,
        dictionaryPath config, entryCount
          (merge existing (collected config outcomes).texts config.source.header config.pageKeys)⟩ := by
  constructor
  · intro h
    obtain ⟨done, current, hpages, hrest⟩ := ends_of_bind h
    obtain ⟨merged, written, hsave, hend⟩ := ends_of_bind hrest
    obtain ⟨rfl, rfl⟩ := ends_of_pure hend
    obtain ⟨outcomes, hnames, hextracts, rfl⟩ := ends_pages_iff.mp hpages
    obtain ⟨existing, hread, rfl, hwrite⟩ := ends_save_texts_iff.mp hsave
    exact ⟨outcomes, current, existing, hnames, hextracts, hread, hwrite, rfl⟩
  · rintro ⟨outcomes, current, existing, hnames, hextracts, hread, hwrite, rfl⟩
    exact ends_bind (ends_pages_iff.mpr ⟨outcomes, hnames, hextracts, rfl⟩)
      (ends_bind (ends_save_texts_iff.mpr ⟨existing, hread, rfl, hwrite⟩) rfl)

/-- A site with two pages, one of which has its authored file under the given path. -/
def pairConfig (templates aboutOutput : String) : Config :=
  { teaConfig templates "en_GB" with
    pages := [⟨"about".toList, "about.html".toList, aboutOutput.toList, none⟩,
      ⟨"home".toList, "index.html".toList, "index.html".toList, none⟩] }

/-- The authored files of that site. -/
def pairFiles (index : Content) : FileTree :=
  ⟨["work".toList], [(["work".toList], .directory),
    (["work".toList, "about.html".toList], .file (.text "<h1>About us</h1>".toList)),
    (["work".toList, "index.html".toList], .file index)]⟩

end Extraction

end Site

end LocalizedSite
