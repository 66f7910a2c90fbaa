import LocalizedSite.Proofs.Dictionary.Store
import LocalizedSite.Proofs.Files.Closed
import LocalizedSite.Site.Extraction

/-!
# Extracting a site, page by page

What an extraction has written and collected after some of its pages (`Progress`), if the authored
pages are no templates. Each page keeps it, and so does the whole run (`Progress.run`).
-/

namespace LocalizedSite

namespace SiteAction

variable {α β : Type} {before after : FileTree} {result : α}

/-- An action has a result and leaves some files behind. -/
def Ends (action : SiteAction α) (before : FileTree) (result : α) (after : FileTree) : Prop :=
  action.run.run before = (.ok result, after)

/-- Of two actions in a row the second goes on with the result and the files of the first. -/
theorem run_bind (first : SiteAction α) (second : α → SiteAction β) (before : FileTree) :
    (first >>= second).run.run before = match first.run.run before with
      | (.ok value, between) => (second value).run.run between
      | (.error fault, between) => (.error fault, between) := by
  show (ExceptT.bindCont second (first.run.run before).1 : StateM FileTree _).run
    (first.run.run before).2 = _
  rcases first.run.run before with ⟨_ | _, between⟩ <;> rfl

/-- Two actions in a row end if both do. -/
theorem ends_of_bind {first : SiteAction α} {second : α → SiteAction β} {result : β}
    (h : (first >>= second).Ends before result after) :
    ∃ value between, first.Ends before value between ∧ (second value).Ends between result after := by
  unfold Ends at h
  rw [run_bind] at h
  split at h
  · next value between hfirst => exact ⟨value, between, hfirst, h⟩
  · exact absurd (Prod.mk.inj h).1 (by simp)

/-- A result is had at once. -/
theorem ends_of_pure {value : α} (h : (pure value : SiteAction α).Ends before result after) :
    result = value ∧ after = before := by
  obtain ⟨hresult, hafter⟩ := Prod.mk.inj h
  exact ⟨(Except.ok.inj hresult).symm, hafter.symm⟩

/-- A fault is no end. -/
theorem not_ends_throw {fault : SiteFault} :
    ¬ (throw fault : SiteAction α).Ends before result after :=
  fun h ↦ absurd (Prod.mk.inj h).1 (by simp)

/-- Looking at the files changes nothing. -/
theorem ends_of_look {read : FileTree → α} (h : (look read).Ends before result after) :
    result = read before ∧ after = before := by
  obtain ⟨hresult, hafter⟩ := Prod.mk.inj h
  exact ⟨(Except.ok.inj hresult).symm, hafter.symm⟩

/-- The files are had as they are. -/
theorem ends_of_get {tree : FileTree} (h : (get : SiteAction FileTree).Ends before tree after) :
    tree = before ∧ after = before := by
  obtain ⟨hresult, hafter⟩ := Prod.mk.inj h
  exact ⟨(Except.ok.inj hresult).symm, hafter.symm⟩

/-- Setting the files leaves them behind. -/
theorem ends_of_set {tree : FileTree} {value : PUnit}
    (h : (set tree : SiteAction PUnit).Ends before value after) : after = tree :=
  (Prod.mk.inj h).2.symm

/-- A value that is no fault is had. -/
theorem ends_of_value {ε : Type} {fault : ε → SiteFault} {value : Except ε α}
    (h : (ofExcept fault value).Ends before result after) : value = .ok result ∧ after = before := by
  cases value with
  | ok value =>
      obtain ⟨rfl, rfl⟩ := ends_of_pure h
      exact ⟨rfl, rfl⟩
  | error cause => exact absurd h not_ends_throw

/-- Reading changes nothing. -/
theorem ends_of_read {read : FileTree → Except FileError α}
    (h : (SiteAction.read read).Ends before result after) :
    read before = .ok result ∧ after = before := by
  obtain ⟨tree, between, hget, hread⟩ := ends_of_bind h
  obtain ⟨rfl, rfl⟩ := ends_of_get hget
  split at hread
  · next value hvalue =>
      obtain ⟨rfl, rfl⟩ := ends_of_pure hread
      exact ⟨hvalue, rfl⟩
  · exact absurd hread not_ends_throw

/-- A change leaves the changed files behind. -/
theorem ends_of_change {change : FileTree → Except FileError FileTree} {value : Unit}
    (h : (SiteAction.change change).Ends before value after) : change before = .ok after := by
  obtain ⟨tree, between, hget, hchange⟩ := ends_of_bind h
  obtain ⟨rfl, rfl⟩ := ends_of_get hget
  split at hchange
  · next changed hchanged => rw [hchanged, ends_of_set hchange]
  · exact absurd hchange not_ends_throw

/-- Writing a text file makes its directory first. -/
theorem ends_of_write_text {path : FilePath} {text : Text} {value : Unit}
    (h : (writeText path text).Ends before value after) :
    before.writeMaking path (.text text) = .ok after := by
  obtain ⟨_, made, hmade, hwrite⟩ := ends_of_bind h
  exact bind_eq_ok.mpr ⟨made, ends_of_change hmade, ends_of_change hwrite⟩

end SiteAction

namespace Site

open FileTree SiteAction

variable {config : Config} {before after : FileTree} {page : Page} {done next : ExtractedPages}

/-- The texts of an extraction. -/
def textsOf (extraction : Extract.Extraction) : Dictionary.PageTexts :=
  ⟨extraction.page, extraction.shared⟩

/-- What a page of some files is extracted to. -/
def ExtractsTo (config : Config) (tree : FileTree) (page : Page) (extraction : Extract.Extraction) :
    Prop :=
  ∃ html, tree.readText (config.authoredPath page) = .ok html ∧
    Extract.extractPage? page config.vocabulary config.brandName html = some extraction

/-- What becomes of a page: without an authored file it is skipped, and otherwise it is extracted, its
template is written and its texts are collected. -/
theorem ends_of_extract_page (h : (extractPage config done page).Ends before next after) :
    (before.isFile (config.authoredPath page) = false ∧ after = before ∧
        next = { done with skipped := done.skipped ++ [page.key] }) ∨
      ∃ extraction, ExtractsTo config before page extraction ∧
        before.writeMaking (config.templatePath page) (.text extraction.template) = .ok after ∧
        next = { done with
          templates := done.templates ++ [config.templatePath page]
          texts := Entries.put done.texts page.key (textsOf extraction) } := by
  obtain ⟨found, between, hlook, hpage⟩ := ends_of_bind h
  obtain ⟨rfl, rfl⟩ := ends_of_look hlook
  cases hfile : between.isFile (config.authoredPath page) with
  | false =>
      rw [hfile] at hpage
      obtain ⟨rfl, rfl⟩ := ends_of_pure hpage
      exact .inl ⟨rfl, rfl, rfl⟩
  | true =>
      rw [hfile] at hpage
      obtain ⟨html, between, hread, hrest⟩ := ends_of_bind hpage
      obtain ⟨hread, rfl⟩ := ends_of_read hread
      split at hrest
      · exact absurd hrest not_ends_throw
      · next extraction hextract =>
          obtain ⟨_, written, hwrite, hend⟩ := ends_of_bind hrest
          obtain ⟨rfl, rfl⟩ := ends_of_pure hend
          exact .inr ⟨extraction, ⟨html, hread, hextract⟩, ends_of_write_text hwrite, rfl⟩

/-- The files grow with every page. -/
theorem grows_of_extract_page (h : (extractPage config done page).Ends before next after) :
    before.Grows after := by
  rcases ends_of_extract_page h with ⟨-, rfl, -⟩ | ⟨extraction, -, hwrite, -⟩
  · exact .refl _
  · exact grows_of_write_making hwrite

/-- The files grow with all pages. -/
theorem grows_of_pages {pages : List Page}
    (h : (pages.foldlM (extractPage config) done).Ends before next after) : before.Grows after := by
  induction pages generalizing done before with
  | nil =>
      obtain ⟨-, rfl⟩ := ends_of_pure h
      exact .refl _
  | cons page pages ih =>
      rw [List.foldlM_cons] at h
      obtain ⟨following, between, hfirst, hothers⟩ := ends_of_bind h
      exact (grows_of_extract_page hfirst).trans (ih hothers)

/-- The texts are merged into the source dictionary, which is written. -/
theorem ends_of_save_texts {texts : Entries Dictionary.PageTexts} {merged : Dictionary}
    (h : (saveTexts config texts).Ends before merged after) :
    ∃ existing, config.store.read before config.source.code = .ok existing ∧
      merged = Dictionary.merge existing texts config.source.header config.pageKeys ∧
      config.store.writeFile before config.source.code merged = .ok after := by
  obtain ⟨tree, between, hget, hloading⟩ := ends_of_bind h
  obtain ⟨rfl, rfl⟩ := ends_of_get hget
  obtain ⟨⟨existing, store⟩, loaded, hsource, hsaving⟩ := ends_of_bind hloading
  obtain ⟨hsource, rfl⟩ := ends_of_value hsource
  obtain ⟨tree, between, hget, hwriting⟩ := ends_of_bind hsaving
  obtain ⟨rfl, rfl⟩ := ends_of_get hget
  obtain ⟨⟨written, kept⟩, between, hsave, hsetting⟩ := ends_of_bind hwriting
  obtain ⟨hsave, rfl⟩ := ends_of_value hsave
  obtain ⟨_, between, hset, hend⟩ := ends_of_bind hsetting
  obtain rfl := ends_of_set hset
  obtain ⟨rfl, rfl⟩ := ends_of_pure hend
  obtain ⟨dictionary, hread, heq⟩ := map_eq_ok.mp hsource
  obtain ⟨rfl, rfl⟩ := Prod.mk.inj heq
  obtain ⟨tree, hwrite, heq⟩ := map_eq_ok.mp hsave
  obtain ⟨rfl, rfl⟩ := Prod.mk.inj heq
  exact ⟨dictionary, hread, rfl, hwrite⟩

/-- A page is extracted to one thing only. -/
theorem ExtractsTo.unique {first second : Extract.Extraction} (h : ExtractsTo config before page first)
    (hother : ExtractsTo config before page second) : first = second := by
  obtain ⟨html, hread, hfirst⟩ := h
  obtain ⟨_, hsame, hsecond⟩ := hother
  rw [hread] at hsame
  obtain rfl := Except.ok.inj hsame
  exact Option.some.inj (hfirst.symm.trans hsecond)

/-- No template of some pages stands at a place. -/
def IsElsewhere (config : Config) (tree : FileTree) (pages : List Page) (place : Location) : Prop :=
  ∀ page ∈ pages, tree.locate (config.templatePath page) ≠ .ok place

/-- What an extraction has done with the pages that it has passed. -/
structure Progress (config : Config) (before : FileTree) (passed : List Page) (done : ExtractedPages)
    (current : FileTree) : Prop where
  /-- Directories were only made. -/
  grows : before.Grows current
  /-- Only templates were written. -/
  files : ∀ place, IsElsewhere config current passed place → ∀ content,
    (current.node? place = some (.file content) ↔ before.node? place = some (.file content))
  /-- In the file of a template stands the template of some page. -/
  templates : ∀ page ∈ passed, ∃ place, current.locate (config.templatePath page) = .ok place ∧
    ∃ other ∈ passed, ∃ extraction, ExtractsTo config before other extraction ∧
      current.node? place = some (.file (.text extraction.template))
  /-- The texts of every page are collected. -/
  collected : ∀ page ∈ passed, ∃ extraction, ExtractsTo config before page extraction ∧
    Entries.get? done.texts page.key = some (textsOf extraction)
  /-- Nothing else is collected. -/
  origin : ∀ entry ∈ done.texts, ∃ page ∈ passed, ∃ extraction,
    ExtractsTo config before page extraction ∧ entry = (page.key, textsOf extraction)

/-- Nothing is done before the first page. -/
theorem progress_nil (config : Config) (tree : FileTree) :
    Progress config tree [] ⟨[], [], []⟩ tree where
  grows := .refl tree
  files _ _ _ := .rfl
  templates := by simp
  collected := by simp
  origin := by simp

/-- One page after others. -/
theorem Progress.step {passed : List Page} {current : FileTree}
    (h : Progress config before passed done current)
    (hfile : before.isFile (config.authoredPath page) = true)
    (hraw : ∀ place, before.locate (config.authoredPath page) = .ok place →
      IsElsewhere config current passed place)
    (hkeys : ∀ other ∈ passed, other.key = page.key → other = page)
    (hstep : (extractPage config done page).Ends current next after) :
    Progress config before (passed ++ [page]) next after := by
  obtain ⟨raw, content, hlocate, hplace⟩ := exists_place_of_is_file hfile
  have hcurrent := locate_of_grows h.grows hlocate
  have hthere := (h.files raw (hraw raw hlocate) content).mpr hplace
  have hcurrentFile : current.isFile (config.authoredPath page) = true := by
    simp only [isFile, at?, hcurrent, hthere]
  obtain ⟨extraction, ⟨html, hread, hextract⟩, hwrite, rfl⟩ :=
    (ends_of_extract_page hstep).resolve_left fun hskipped ↦ by
      rw [hcurrentFile] at hskipped
      exact absurd hskipped.1 (by decide)
  have hextracts : ExtractsTo config before page extraction :=
    ⟨html, by rwa [← read_text_congr hlocate hcurrent (hthere.trans hplace.symm)], hextract⟩
  obtain ⟨location, htemplate, hwritten⟩ := node_of_write_making hwrite
  have hgrows := grows_of_write_making hwrite
  refine ⟨h.grows.trans hgrows, fun place helsewhere other ↦ ?_, ?_, ?_, ?_⟩
  · have hne : place ≠ location := by
      rintro rfl
      exact helsewhere page (by simp) htemplate
    rw [file_elsewhere hwrite htemplate hne]
    refine h.files place (fun earlier hearlier hlocated ↦ ?_) other
    exact helsewhere earlier (List.mem_append_left _ hearlier) (locate_of_grows hgrows hlocated)
  · intro earlier hearlier
    -- a page that came before may share the file of its template with this one
    rcases List.mem_append.mp hearlier with hpassed | hlast
    · obtain ⟨place, hlocated, other, hother, found, hfound, hstands⟩ := h.templates earlier hpassed
      refine ⟨place, locate_of_grows hgrows hlocated, ?_⟩
      by_cases hsame : place = location
      · exact ⟨page, by simp, extraction, hextracts, by rwa [hsame]⟩
      · exact ⟨other, List.mem_append_left _ hother, found, hfound,
          node_elsewhere hwrite htemplate hsame hstands⟩
    · obtain rfl := List.mem_singleton.mp hlast
      exact ⟨location, htemplate, earlier, by simp, extraction, hextracts, hwritten⟩
  · intro earlier hearlier
    by_cases hkey : earlier.key = page.key
    · have hsame : earlier = page := by
        rcases List.mem_append.mp hearlier with hpassed | hlast
        · exact hkeys earlier hpassed hkey
        · exact List.mem_singleton.mp hlast
      exact ⟨extraction, hsame ▸ hextracts, by rw [Entries.get_put, if_pos hkey]⟩
    · have hpassed : earlier ∈ passed :=
        (List.mem_append.mp hearlier).resolve_right fun hlast ↦
          hkey (by rw [List.mem_singleton.mp hlast])
      obtain ⟨found, hfound, hget⟩ := h.collected earlier hpassed
      exact ⟨found, hfound, by rw [Entries.get_put, if_neg hkey, hget]⟩
  · intro entry hentry
    rcases Entries.mem_of_put hentry with hold | rfl
    · obtain ⟨other, hother, found, hfound, heq⟩ := h.origin entry hold
      exact ⟨other, List.mem_append_left _ hother, found, hfound, heq⟩
    · exact ⟨page, by simp, extraction, hextracts, rfl⟩

/-- The authored pages are files, and none is the file of a template. -/
structure AreAuthored (config : Config) (before after : FileTree) (pages : List Page) : Prop where
  present : ∀ page ∈ pages, before.isFile (config.authoredPath page) = true
  elsewhere : ∀ page ∈ pages, ∀ place, before.locate (config.authoredPath page) = .ok place →
    IsElsewhere config after pages place

/-- All pages, one after another. -/
theorem Progress.run {passed pages : List Page} {current : FileTree}
    (h : Progress config before passed done current)
    (hauthored : AreAuthored config before after (passed ++ pages))
    (hkeys : ∀ page ∈ passed ++ pages, ∀ other ∈ passed ++ pages,
      other.key = page.key → other = page)
    (hrun : (pages.foldlM (extractPage config) done).Ends current next after) :
    Progress config before (passed ++ pages) next after := by
  induction pages generalizing passed done current with
  | nil =>
      obtain ⟨rfl, rfl⟩ := ends_of_pure hrun
      rwa [List.append_nil]
  | cons page pages ih =>
      rw [List.foldlM_cons] at hrun
      obtain ⟨following, between, hfirst, hothers⟩ := ends_of_bind hrun
      have hmem : page ∈ passed ++ page :: pages := by simp
      have hgrows : current.Grows after :=
        (grows_of_extract_page hfirst).trans (grows_of_pages hothers)
      have hmoved : passed ++ page :: pages = passed ++ [page] ++ pages := by simp
      have hnext : Progress config before (passed ++ [page]) following between := by
        refine h.step (hauthored.present page hmem) (fun place hplace other hother hlocate ↦ ?_)
          (fun other hother ↦ hkeys page hmem other (List.mem_append_left _ hother)) hfirst
        exact hauthored.elsewhere page hmem place hplace other (List.mem_append_left _ hother)
          (locate_of_grows hgrows hlocate)
      rw [hmoved] at hauthored hkeys ⊢
      exact ih hnext hauthored hkeys hothers

end Site

end LocalizedSite
