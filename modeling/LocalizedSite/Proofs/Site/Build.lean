import LocalizedSite.Proofs.Dictionary.Snapshot
import LocalizedSite.Proofs.Files.Copying
import LocalizedSite.Proofs.Site.Extraction
import LocalizedSite.Site.Build

/-!
# What a build writes

A build stops at a dictionary file that is no text; any other file that is no dictionary makes it leave out
one locale. What it writes for a page in a locale depends on the template and on the dictionaries of the
locale and of the source alone (`build_isolated`).
-/

namespace LocalizedSite

namespace SiteAction

variable {α β : Type} {before after : FileTree}

/-- Doing something for one thing after others. -/
theorem ends_of_for_m {act : α → SiteAction PUnit} {value : α} {values : List α} {result : PUnit}
    (h : ((value :: values).forM act).Ends before result after) :
    ∃ between, (act value).Ends before ⟨⟩ between ∧ (values.forM act).Ends between ⟨⟩ after := by
  obtain ⟨first, between, hfirst, hothers⟩ := ends_of_bind h
  exact ⟨between, hfirst, hothers⟩

/-- What is kept each single time is kept by doing something for each of several things. -/
theorem for_m_keeps {act : α → SiteAction PUnit} {values : List α} {holds : FileTree → Prop}
    (hstep : ∀ value ∈ values, ∀ {before after : FileTree}, (act value).Ends before ⟨⟩ after →
      holds before → holds after)
    (h : (values.forM act).Ends before ⟨⟩ after) (hbefore : holds before) : holds after := by
  induction values generalizing before with
  | nil =>
      obtain ⟨-, rfl⟩ := ends_of_pure h
      exact hbefore
  | cons value values ih =>
      obtain ⟨between, hfirst, hothers⟩ := ends_of_for_m h
      exact ih (fun other hother ↦ hstep other (List.mem_cons_of_mem _ hother)) hothers
        (hstep value (List.mem_cons_self ..) hfirst hbefore)

/-- What relates two runs each single time relates them when something is done for each of several things. -/
theorem for_m_relates {act : α → SiteAction PUnit} {values : List α}
    {relates : FileTree → FileTree → Prop}
    (hstep : ∀ value ∈ values, ∀ {first second after rest : FileTree}, (act value).Ends first ⟨⟩ after →
      (act value).Ends second ⟨⟩ rest → relates first second → relates after rest)
    {other rest : FileTree} (h : (values.forM act).Ends before ⟨⟩ after)
    (hother : (values.forM act).Ends other ⟨⟩ rest) (hbefore : relates before other) :
    relates after rest := by
  induction values generalizing before other with
  | nil =>
      obtain ⟨-, rfl⟩ := ends_of_pure h
      obtain ⟨-, rfl⟩ := ends_of_pure hother
      exact hbefore
  | cons value values ih =>
      obtain ⟨between, hfirst, hothers⟩ := ends_of_for_m h
      obtain ⟨between', hsecond, hrest⟩ := ends_of_for_m hother
      exact ih (fun other hother ↦ hstep other (List.mem_cons_of_mem _ hother)) hothers hrest
        (hstep value (List.mem_cons_self ..) hfirst hsecond hbefore)

/-- Making one result after others. -/
theorem ends_of_map_m {act : α → SiteAction β} {value : α} {values : List α} {results : List β}
    (h : ((value :: values).mapM act).Ends before results after) :
    ∃ first others between, results = first :: others ∧ (act value).Ends before first between ∧
      (values.mapM act).Ends between others after := by
  rw [List.mapM_cons] at h
  obtain ⟨first, between, hfirst, hrest⟩ := ends_of_bind h
  obtain ⟨others, last, hothers, hpure⟩ := ends_of_bind hrest
  obtain ⟨rfl, rfl⟩ := ends_of_pure hpure
  exact ⟨first, others, between, rfl, hfirst, hothers⟩

/-- No results are made for nothing. -/
theorem ends_of_map_m_nil {act : α → SiteAction β} {results : List β}
    (h : (([] : List α).mapM act).Ends before results after) : results = [] ∧ after = before := by
  rw [List.mapM_nil] at h
  exact ends_of_pure h

end SiteAction

namespace Site

open FileTree SiteAction

variable {config : Config} {before after : FileTree}

section Output

/-- The output directory is emptied and removed, if it is there, and then it is made. -/
theorem ends_of_clean_output {result : Unit} (h : (cleanOutput config).Ends before result after) :
    (∃ emptied removed, before.emptyDirectory config.outputDirectory = .ok emptied ∧
        emptied.removeDirectory config.outputDirectory = .ok removed ∧
        removed.makeDirectories config.outputDirectory = .ok after) ∨
      before.at? config.outputDirectory = none ∧
        before.makeDirectories config.outputDirectory = .ok after := by
  obtain ⟨found, between, hlook, hrest⟩ := ends_of_bind h
  obtain ⟨rfl, rfl⟩ := ends_of_look hlook
  split at hrest
  · obtain ⟨_, emptied, hempty, hrest⟩ := ends_of_bind hrest
    obtain ⟨_, removed, hremove, hmake⟩ := ends_of_bind hrest
    exact .inl ⟨emptied, removed, ends_of_change hempty, ends_of_change hremove, ends_of_change hmake⟩
  · next hnone => exact .inr ⟨by simpa using hnone, ends_of_change hrest⟩

end Output

section Templates

/-- The template of a page, if it can be read. -/
def template? (config : Config) (tree : FileTree) (page : Page) : Option Text :=
  (tree.readText (config.templatePath page)).toOption

/-- Some pages with their templates, and the keys of those without. -/
def templatesOf (config : Config) (tree : FileTree) (pages : List Page) : Templates where
  found := pages.filterMap fun page ↦ (template? config tree page).map (page, ·)
  missing := (pages.filter fun page ↦ (template? config tree page).isNone).map Page.key

/-- Reading the template of a page changes nothing. -/
theorem ends_of_read_template {page : Page} {done next : Templates}
    (h : (readTemplate config done page).Ends before next after) : after = before ∧
      next = ⟨done.found ++ (templatesOf config before [page]).found,
        done.missing ++ (templatesOf config before [page]).missing⟩ := by
  obtain ⟨found, between, hlook, hrest⟩ := ends_of_bind h
  obtain ⟨rfl, rfl⟩ := ends_of_look hlook
  cases hfile : between.isFile (config.templatePath page) with
  | true =>
      rw [hfile] at hrest
      obtain ⟨text, between, hread, hpure⟩ := ends_of_bind hrest
      obtain ⟨hread, rfl⟩ := ends_of_read hread
      obtain ⟨rfl, rfl⟩ := ends_of_pure hpure
      have htemplate : template? config after page = some text := by
        rw [template?, hread]
        rfl
      exact ⟨rfl, by simp [templatesOf, htemplate]⟩
  | false =>
      rw [hfile] at hrest
      obtain ⟨rfl, rfl⟩ := ends_of_pure hrest
      -- A text is read from a file only, so a page without a file has no template.
      have htemplate : template? config after page = none := by
        unfold template?
        cases hread : after.readText (config.templatePath page) with
        | error error => rfl
        | ok text => exact absurd ((FileTree.is_file_of_read_text hread).symm.trans hfile) (by simp)
      exact ⟨rfl, by simp [templatesOf, htemplate]⟩

/-- Reading the templates of all pages changes nothing. -/
theorem ends_of_templates {pages : List Page} {done next : Templates}
    (h : (pages.foldlM (readTemplate config) done).Ends before next after) : after = before ∧
      next = ⟨done.found ++ (templatesOf config before pages).found,
        done.missing ++ (templatesOf config before pages).missing⟩ := by
  induction pages generalizing done with
  | nil =>
      obtain ⟨rfl, rfl⟩ := ends_of_pure h
      exact ⟨rfl, by simp [templatesOf]⟩
  | cons page pages ih =>
      rw [List.foldlM_cons] at h
      obtain ⟨following, between, hfirst, hothers⟩ := ends_of_bind h
      obtain ⟨rfl, rfl⟩ := ends_of_read_template hfirst
      obtain ⟨rfl, rfl⟩ := ih hothers
      refine ⟨rfl, ?_⟩
      have happend : templatesOf config after (page :: pages) =
          ⟨(templatesOf config after [page]).found ++ (templatesOf config after pages).found,
            (templatesOf config after [page]).missing ++
              (templatesOf config after pages).missing⟩ := by
        unfold templatesOf
        rw [← List.filterMap_append, ← List.map_append, ← List.filter_append]
        rfl
      rw [happend]
      simp only [List.append_assoc]

/-- The templates are read alike in trees that agree outside some places, none of which is the place of a
template. -/
theorem templates_congr {places : Location → Prop} {first second : FileTree}
    (hagree : AgreeOutside places first second) {pages : List Page}
    (helsewhere : ∀ page ∈ pages,
      ¬ places ((config.templatePath page).spelt first.workingDirectory)) :
    templatesOf config second pages = templatesOf config first pages := by
  have hsame : ∀ page ∈ pages, template? config second page = template? config first page := by
    intro page hmem
    refine Option.ext fun text ↦ ?_
    rw [template?, template?, to_option_iff, to_option_iff]
    exact hagree.read_text (helsewhere page hmem)
  unfold templatesOf
  rw [List.filterMap_congr fun page hmem ↦ by rw [hsame page hmem],
    List.filter_congr fun page hmem ↦ by rw [hsame page hmem]]

end Templates

section Pages

/-- A page as it is built in a locale. -/
def builtPage (config : Config) (source : Dictionary) (locale : Locale) (dictionary : Dictionary)
    (entry : Page × Text) : BuiltPage :=
  ⟨entry.1.key, locale.code, outputPath config entry.1 locale,
    Render.renderPage config.registry entry.1 locale ⟨dictionary, source⟩ entry.2⟩

/-- The pages as they are built in some locales. -/
def builtPages (config : Config) (source : Dictionary) (templates : List (Page × Text))
    (built : List (Locale × Dictionary)) : List BuiltPage :=
  built.flatMap fun entry ↦ templates.map (builtPage config source entry.1 entry.2)

/-- Some pages are written one after another. -/
inductive Writes : FileTree → List BuiltPage → FileTree → Prop
  | none (tree : FileTree) : Writes tree [] tree
  | more {before between after : FileTree} {built : BuiltPage} {others : List BuiltPage}
      (hfirst : before.writeMaking built.path (.text built.rendering.text) = .ok between)
      (hothers : Writes between others after) : Writes before (built :: others) after

/-- Pages are written after others. -/
theorem Writes.append {between : FileTree} {first second : List BuiltPage}
    (hfirst : Writes before first between) (hsecond : Writes between second after) :
    Writes before (first ++ second) after := by
  induction hfirst with
  | none tree => exact hsecond
  | more hwrite _ ih => exact .more hwrite (ih hsecond)

/-- Building a page writes it. -/
theorem ends_of_build_page {source dictionary : Dictionary} {locale : Locale} {entry : Page × Text}
    {built : BuiltPage}
    (h : (buildPage config locale ⟨dictionary, source⟩ entry.1 entry.2).Ends before built after) :
    built = builtPage config source locale dictionary entry ∧
      before.writeMaking built.path (.text built.rendering.text) = .ok after := by
  obtain ⟨_, between, hwrite, hpure⟩ := ends_of_bind h
  obtain ⟨rfl, rfl⟩ := ends_of_pure hpure
  exact ⟨rfl, ends_of_write_text hwrite⟩

/-- Building the pages in a locale writes them. -/
theorem ends_of_build_locale {source dictionary : Dictionary} {locale : Locale}
    {templates : List (Page × Text)} {pages : List BuiltPage}
    (h : (buildLocale config source templates locale dictionary).Ends before pages after) :
    pages = templates.map (builtPage config source locale dictionary) ∧ Writes before pages after := by
  unfold buildLocale at h
  induction templates generalizing before pages with
  | nil =>
      obtain ⟨rfl, rfl⟩ := ends_of_map_m_nil h
      exact ⟨rfl, .none _⟩
  | cons entry templates ih =>
      obtain ⟨first, others, between, rfl, hfirst, hothers⟩ := ends_of_map_m h
      obtain ⟨rfl, hwrite⟩ := ends_of_build_page hfirst
      obtain ⟨rfl, hwrites⟩ := ih hothers
      exact ⟨rfl, .more hwrite hwrites⟩

/-- Building the pages in some locales writes them. -/
theorem ends_of_build_locales {source : Dictionary} {templates : List (Page × Text)}
    {built : List (Locale × Dictionary)} {pages : List (List BuiltPage)}
    (h : (built.mapM fun (locale, dictionary) ↦
      buildLocale config source templates locale dictionary).Ends before pages after) :
    pages.flatten = builtPages config source templates built ∧ Writes before pages.flatten after := by
  induction built generalizing before pages with
  | nil =>
      obtain ⟨rfl, rfl⟩ := ends_of_map_m_nil h
      exact ⟨rfl, .none _⟩
  | cons entry built ih =>
      obtain ⟨first, others, between, rfl, hfirst, hothers⟩ := ends_of_map_m h
      obtain ⟨hpages, hwrites⟩ := ends_of_build_locale hfirst
      obtain ⟨hrest, hwritesRest⟩ := ih hothers
      refine ⟨?_, ?_⟩
      · rw [List.flatten_cons, hrest, hpages]
        rfl
      · rw [List.flatten_cons]
        exact hwrites.append hwritesRest

/-- Writing pages extends the files. -/
theorem Writes.extends {pages : List BuiltPage} (h : Writes before pages after) :
    Extends before after := by
  induction h with
  | none tree => exact .refl tree
  | more hwrite _ ih => exact (extends_of_write_making hwrite).trans ih

/-- A file stays as it is if the pages that are written in its place are what it holds. -/
theorem Writes.keeps {pages : List BuiltPage} (h : Writes before pages after) {place : Location}
    {text : Text}
    (hsame : ∀ built ∈ pages, built.path.spelt before.workingDirectory = place →
      built.rendering.text = text)
    (hplace : before.node? place = some (.file (.text text))) :
    after.node? place = some (.file (.text text)) := by
  induction h with
  | none tree => exact hplace
  | @more before between after built others hwrite hothers ih =>
      have hgrows := (extends_of_write_making hwrite).grows
      refine ih (fun other hother ↦ ?_) ?_
      · rw [hgrows.workingDirectory]
        exact hsame other (List.mem_cons_of_mem _ hother)
      · obtain ⟨location, hlocate, hwritten⟩ := node_of_write_making hwrite
        by_cases hne : place = location
        · have hspelt := locate_eq_spelt hlocate
          rw [hgrows.workingDirectory] at hspelt
          rw [hne, hwritten, hsame built (List.mem_cons_self ..) (hspelt.symm.trans hne.symm)]
        · exact node_elsewhere hwrite hlocate hne hplace

/-- A written page stands in its file, if every page that is written in its place has the same text. -/
theorem Writes.stands {pages : List BuiltPage} (h : Writes before pages after) {built : BuiltPage}
    (hmem : built ∈ pages)
    (hsame : ∀ other ∈ pages, other.path.spelt before.workingDirectory =
      built.path.spelt before.workingDirectory → other.rendering.text = built.rendering.text) :
    after.locate built.path = .ok (built.path.spelt before.workingDirectory) ∧
      after.node? (built.path.spelt before.workingDirectory) =
        some (.file (.text built.rendering.text)) := by
  induction h with
  | none tree => exact absurd hmem List.not_mem_nil
  | @more before between after first others hwrite hothers ih =>
      have hdirectory := (extends_of_write_making hwrite).grows.workingDirectory
      have hothersSame : ∀ other ∈ others, other.path.spelt between.workingDirectory =
          built.path.spelt between.workingDirectory → other.rendering.text = built.rendering.text := by
        rw [hdirectory]
        exact fun other hother ↦ hsame other (List.mem_cons_of_mem _ hother)
      -- The first page is kept by those that are written after it; any other one stands by induction.
      rcases List.mem_cons.mp hmem with rfl | hmem
      · obtain ⟨location, hlocate, hwritten⟩ := node_of_write_making hwrite
        obtain rfl := locate_eq_spelt hlocate
        rw [← hdirectory]
        exact ⟨locate_of_grows hothers.extends.grows hlocate, hothers.keeps hothersSame hwritten⟩
      · rw [← hdirectory]
        exact ih hmem hothersSame

end Pages

section Copies

variable {name : Text} {place : Location} {content : Content}

/-- A static file is copied, if it is there. -/
theorem ends_of_copy_static_file {result : PUnit}
    (h : (copyStaticFile config name).Ends before result after) :
    before.isFile (config.sourceDirectory.joinText name) = false ∧ after = before ∨
      before.isFile (config.sourceDirectory.joinText name) = true ∧
        ∃ made, before.makeDirectories (config.outputDirectory.joinText name).parent = .ok made ∧
          made.copyFile (config.sourceDirectory.joinText name)
            (config.outputDirectory.joinText name) = .ok after := by
  obtain ⟨found, between, hlook, hrest⟩ := ends_of_bind h
  obtain ⟨rfl, rfl⟩ := ends_of_look hlook
  split at hrest
  · next hfile =>
      obtain ⟨_, made, hmake, hcopy⟩ := ends_of_bind hrest
      exact .inr ⟨hfile, made, ends_of_change hmake, ends_of_change hcopy⟩
  · next hfile => exact .inl ⟨by simpa using hfile, (ends_of_pure hrest).2⟩

/-- A static directory is copied, if it is there. -/
theorem ends_of_copy_static_directory {result : PUnit}
    (h : (copyStaticDirectory config name).Ends before result after) :
    before.isDirectory (config.sourceDirectory.joinText name) = false ∧ after = before ∨
      before.isDirectory (config.sourceDirectory.joinText name) = true ∧
        before.copyDirectory (config.sourceDirectory.joinText name)
          (config.outputDirectory.joinText name) = .ok after := by
  obtain ⟨found, between, hlook, hrest⟩ := ends_of_bind h
  obtain ⟨rfl, rfl⟩ := ends_of_look hlook
  split at hrest
  · next hdirectory => exact .inr ⟨hdirectory, ends_of_change hrest⟩
  · next hdirectory => exact .inl ⟨by simpa using hdirectory, (ends_of_pure hrest).2⟩

/-- A file is left alone by what happens to some files, which only adds to them. -/
structure Spares (place : Location) (before after : FileTree) : Prop where
  extended : Extends before after
  file : ∀ content, before.node? place = some (.file content) →
    after.node? place = some (.file content)

/-- A file is left alone if nothing happens. -/
theorem Spares.refl (place : Location) (tree : FileTree) : Spares place tree tree :=
  ⟨.refl tree, fun _ hplace ↦ hplace⟩

/-- A file is left alone by one thing after another. -/
theorem Spares.trans {first second third : FileTree} (h : Spares place first second)
    (hnext : Spares place second third) : Spares place first third :=
  ⟨h.extended.trans hnext.extended, fun content hplace ↦ hnext.file content (h.file content hplace)⟩

/-- Doing something for each of several things leaves a file alone if each single time does. -/
theorem spares_of_for_m {α : Type} {act : α → SiteAction PUnit} {values : List α}
    {workingDirectory : Location}
    (hstep : ∀ value ∈ values, ∀ {before after : FileTree}, before.Plain →
      before.workingDirectory = workingDirectory → (act value).Ends before ⟨⟩ after →
      Spares place before after)
    (hplain : before.Plain) (hdirectory : before.workingDirectory = workingDirectory)
    (h : (values.forM act).Ends before ⟨⟩ after) : Spares place before after := by
  refine for_m_keeps (fun value hvalue first second hends hspares ↦ ?_) h (.refl place before)
  have hfirst := hspares.extended.grows.workingDirectory.trans hdirectory
  exact hspares.trans (hstep value hvalue (hspares.extended.plain hplain) hfirst hends)

/-- Copying a static file leaves what stands elsewhere. -/
theorem spares_of_copy_static_file
    (h : (copyStaticFile config name).Ends before ⟨⟩ after)
    (htarget : (config.outputDirectory.joinText name).spelt before.workingDirectory ≠ place)
    (hinside : ((config.outputDirectory.joinText name).join
      ⟨[], [(config.sourceDirectory.joinText name).name]⟩).spelt before.workingDirectory ≠ place) :
    Spares place before after := by
  rcases ends_of_copy_static_file h with ⟨-, rfl⟩ | ⟨-, made, hmake, hcopy⟩
  · exact .refl place _
  · have hmade := extends_of_make_directories hmake
    refine ⟨hmade.trans (extends_of_copy_file hcopy), fun content hplace ↦ ?_⟩
    rw [← hmade.grows.workingDirectory] at htarget hinside
    rw [node_of_copy_file hcopy htarget hinside]
    exact node_of_make_directories hmake hplace

/-- Copying a static directory leaves what does not stand below its target. -/
theorem spares_of_copy_static_directory (hplain : before.Plain)
    (h : (copyStaticDirectory config name).Ends before ⟨⟩ after)
    (htarget : ¬ (config.outputDirectory.joinText name).spelt before.workingDirectory <+: place) :
    Spares place before after := by
  rcases ends_of_copy_static_directory h with ⟨-, rfl⟩ | ⟨-, hcopy⟩
  · exact .refl place _
  · exact ⟨extends_of_copy_directory hcopy, fun content ↦ file_of_copy_directory hplain hcopy htarget⟩

/-- Writing a file leaves what stands elsewhere. -/
theorem spares_of_write_text {path : FilePath} {text : Text} {result : Unit}
    (h : (writeText path text).Ends before result after)
    (helsewhere : path.spelt before.workingDirectory ≠ place) : Spares place before after := by
  have hwrite := ends_of_write_text h
  have hextends := extends_of_write_making hwrite
  refine ⟨hextends, fun content hplace ↦ ?_⟩
  obtain ⟨location, hlocate, -⟩ := node_of_write_making hwrite
  have hspelt := locate_eq_spelt hlocate
  rw [hextends.grows.workingDirectory] at hspelt
  exact node_elsewhere hwrite hlocate (fun hsame ↦ helsewhere (hspelt.symm.trans hsame.symm)) hplace

/-- The text of a robots file that names the sitemap. -/
def namingSitemap (config : Config) (text : Text) : Text :=
  if Text.contains (lineFeeds text) sitemapMark then text
  else lineFeeds text ++
    ('\n' :: sitemapMark ++ ' ' :: config.baseUrl ++ '/' :: sitemapName ++ ['\n'])

/-- The robots file is read, if it is there, and it is written if it names no sitemap. -/
theorem name_sitemap_cases {result : Unit} (h : (nameSitemap config).Ends before result after) :
    before.isFile (config.outputDirectory.joinText robotsName) = false ∧ after = before ∨
      before.isFile (config.outputDirectory.joinText robotsName) = true ∧
        ∃ text, before.readText (config.outputDirectory.joinText robotsName) = .ok text ∧
          (Text.contains text sitemapMark = true ∧ after = before ∨
            Text.contains text sitemapMark = false ∧
              before.write (config.outputDirectory.joinText robotsName) (.text (text ++
                ('\n' :: sitemapMark ++ ' ' :: config.baseUrl ++ '/' :: sitemapName ++ ['\n']))) = .ok after) := by
  obtain ⟨found, between, hlook, hrest⟩ := ends_of_bind h
  obtain ⟨rfl, rfl⟩ := ends_of_look hlook
  cases hfile : between.isFile (config.outputDirectory.joinText robotsName) with
  | false =>
      rw [hfile] at hrest
      exact .inl ⟨rfl, (ends_of_pure hrest).2⟩
  | true =>
      rw [hfile] at hrest
      obtain ⟨text, following, hread, hnext⟩ := ends_of_bind hrest
      obtain ⟨hread, rfl⟩ := ends_of_read hread
      refine .inr ⟨rfl, text, hread, ?_⟩
      cases hnamed : Text.contains text sitemapMark with
      | true =>
          rw [hnamed] at hnext
          exact .inl ⟨rfl, (ends_of_pure hnext).2⟩
      | false =>
          rw [hnamed] at hnext
          exact .inr ⟨rfl, ends_of_change hnext⟩

/-- Naming the sitemap changes the robots file alone. -/
theorem ends_of_name_sitemap {result : Unit} (h : (nameSitemap config).Ends before result after) :
    Extends before after ∧ ∀ place text, before.node? place = some (.file (.text text)) →
      after.node? place = some (.file (.text
        (if before.locate (config.outputDirectory.joinText robotsName) = .ok place then
          namingSitemap config text else text))) := by
  rcases name_sitemap_cases h with ⟨hfile, rfl⟩ | ⟨-, read, hread, hcases⟩
  · refine ⟨.refl _, fun place text hplace ↦ ?_⟩
    rw [if_neg, hplace]
    intro hlocate
    have : after.isFile (config.outputDirectory.joinText robotsName) = true := by
      simp only [isFile, at?, hlocate, hplace]
    exact absurd (this.symm.trans hfile) (by simp)
  · obtain ⟨robots, held, hlocate, hheld, rfl⟩ := file_of_read_text hread
    -- The path leads to one place only, so what stands there is the text that was read.
    have hrobots {place : Location} {text : Text} (hplace : before.node? place = some (.file (.text text)))
        (hthere : before.locate (config.outputDirectory.joinText robotsName) = .ok place) :
        place = robots ∧ text = held := by
      obtain rfl := Except.ok.inj (hthere.symm.trans hlocate)
      rw [hheld] at hplace
      simpa using hplace.symm
    rcases hcases with ⟨hnamed, rfl⟩ | ⟨hnamed, hwrite⟩
    · refine ⟨.refl _, fun place text hplace ↦ ?_⟩
      split
      · next hthere =>
          obtain ⟨rfl, rfl⟩ := hrobots hplace hthere
          rw [namingSitemap, if_pos hnamed, hplace]
      · exact hplace
    · refine ⟨extends_of_write hwrite, fun place text hplace ↦ ?_⟩
      split
      · next hthere =>
          obtain ⟨rfl, rfl⟩ := hrobots hplace hthere
          obtain ⟨location, hlocated, hnode, rfl⟩ := write_eq.mp hwrite
          obtain rfl := Except.ok.inj (hlocated.symm.trans hthere)
          have hroot : location ≠ [] := ne_root rfl hnode
          rw [node_set_node before hroot, if_pos rfl, namingSitemap, hnamed]
          rfl
      · next hother =>
          rw [node_of_write hwrite fun hspelt ↦ hother ?_, hplace]
          rw [hlocate, ← hspelt, locate_eq_spelt hlocate]

end Copies

section Publish

variable {requested : List Locale} {dictionaries : Entries Dictionary} {today : Text}
  {report : BuildReport}

/-- The requested locales are locales of the site. -/
theorem mem_locales_of_select {codes : List Text} (h : config.selectLocales codes = .ok requested)
    {locale : Locale} (hlocale : locale ∈ requested) : ∃ entry ∈ config.locales, entry.2 = locale := by
  unfold Config.selectLocales at h
  simp only at h
  split at h
  · obtain rfl := Except.ok.inj h
    exact List.mem_map.mp hlocale
  · split at h
    · obtain rfl := Except.ok.inj h
      obtain ⟨entry, hentry, rfl⟩ := List.mem_map.mp hlocale
      exact ⟨entry, (List.mem_filter.mp hentry).1, rfl⟩
    · exact absurd h (by simp)

/-- The text of the sitemap for some built locales. -/
def sitemapFor (config : Config) (today : Text) (locales : List Locale) : Text :=
  Render.sitemapText
    (Render.sitemapEntries config.registry config.hiddenPages today config.pages locales)

/-- What a build writes: the output is cleaned, the templates are read, the pages are written, and then the
static files, the sitemap and the line in the robots file. -/
structure Publishes (config : Config) (requested : List Locale) (dictionaries : Entries Dictionary)
    (today : Text) (before cleaned written filed copied mapped : FileTree) (report : BuildReport)
    (after : FileTree) : Prop where
  cleans : (cleanOutput config).Ends before () cleaned
  writes : Writes cleaned report.pages written
  files : (config.staticFiles.forM (copyStaticFile config)).Ends written ⟨⟩ filed
  directories : (config.staticDirectories.forM (copyStaticDirectory config)).Ends filed ⟨⟩ copied
  sitemap : (writeText (config.outputDirectory.joinText sitemapName) (sitemapFor config today
    ((withDictionary dictionaries requested).map Prod.fst))).Ends copied () mapped
  robots : (nameSitemap config).Ends mapped () after
  pages : report.pages = builtPages config ((Entries.get? dictionaries config.source.code).getD [])
    (templatesOf config cleaned config.pages).found (withDictionary dictionaries requested)
  missing : report.missingTemplates = (templatesOf config cleaned config.pages).missing
  skipped : report.skippedLocales =
    (requested.filter fun locale ↦ !Entries.has dictionaries locale.code).map Locale.code
  locales : report.locales =
    ((withDictionary dictionaries requested).map Prod.fst).map Locale.code
  place : report.sitemap = config.outputDirectory.joinText sitemapName

/-- A build that returns has written all of this. -/
theorem ends_of_publish (h : (publish config requested dictionaries today).Ends before report after) :
    ∃ cleaned written filed copied mapped, Publishes config requested dictionaries today before cleaned
      written filed copied mapped report after := by
  obtain ⟨_, cleaned, hclean, hrest⟩ := ends_of_bind h
  obtain ⟨templates, between, htemplates, hrest⟩ := ends_of_bind hrest
  obtain ⟨rfl, rfl⟩ := ends_of_templates htemplates
  obtain ⟨pages, written, hpages, hrest⟩ := ends_of_bind hrest
  obtain ⟨hbuilt, hwrites⟩ := ends_of_build_locales hpages
  obtain ⟨_, filed, hfiles, hrest⟩ := ends_of_bind hrest
  obtain ⟨_, copied, hdirectories, hrest⟩ := ends_of_bind hrest
  obtain ⟨_, mapped, hsitemap, hrest⟩ := ends_of_bind hrest
  obtain ⟨_, last, hrobots, hpure⟩ := ends_of_bind hrest
  obtain ⟨rfl, rfl⟩ := ends_of_pure hpure
  exact ⟨_, _, _, _, _, hclean, hwrites, hfiles, hdirectories, hsitemap, hrobots, hbuilt, rfl, rfl, rfl, rfl⟩

end Publish

end Site

end LocalizedSite
