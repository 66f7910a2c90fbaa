import LocalizedSite.Proofs.Site.Writable

/-!
# What a build reads and what lasts

## The dictionaries of other locales

A build reads all its dictionaries first, and stops there if one of the files is no text
(`build_stops`). Otherwise two builds whose files differ at most in some places write the same for a
locale, if none of these places is the file of a template or of the dictionary of the locale or of the source
(`build_isolated`).
-/

namespace LocalizedSite

namespace Site

open FileTree SiteAction

variable {config : Config} {codes : List Text} {today : Text} {requested : List Locale}
  {locale : Locale} {tree before after : FileTree} {report : BuildReport}
  {dictionaries : Entries Dictionary}

/-- The locales whose dictionaries a build reads: those requested, and the source. -/
def dictionaryCodes (config : Config) (requested : List Locale) : List Text :=
  requested.map Locale.code ++ [config.source.code]

/-- The code of a requested locale is among those whose dictionaries are read. -/
theorem mem_dictionary_codes (h : locale ∈ requested) :
    locale.code ∈ dictionaryCodes config requested :=
  List.mem_append_left _ (List.mem_map_of_mem h)

section Reading

/-- A build goes on with the dictionaries that the files hold, if every file is a text. -/
theorem build_goes_on (today : Text) (hrequested : config.selectLocales codes = .ok requested)
    (htexts : ∀ code ∈ dictionaryCodes config requested, config.store.HoldsText tree code) :
    ∃ dictionaries, (∀ code ∈ dictionaryCodes config requested,
        Entries.get? dictionaries code = config.store.dictionary? tree code) ∧
      (build config codes today).run.run tree =
        (publish config requested dictionaries today).run.run tree := by
  obtain ⟨found, hfound, hget⟩ := Store.snapshot_spec htexts
  refine ⟨found, hget, ?_⟩
  have hread : (readDictionaries config requested).run.run tree = (.ok found, tree) := by
    unfold readDictionaries
    rw [run_bind]
    show (ofExcept _ (config.store.snapshot tree (dictionaryCodes config requested)).1).run.run tree = _
    rw [hfound]
    rfl
  unfold build
  rw [run_bind, hrequested]
  show (readDictionaries config requested >>= _).run.run tree = _
  rw [run_bind, hread]

/-- A build stops at the dictionaries, before anything is written, if one of the files is no text. -/
theorem build_stops (today : Text) (hrequested : config.selectLocales codes = .ok requested)
    (hbytes : ∃ code ∈ dictionaryCodes config requested, ¬ config.store.HoldsText tree code) :
    (build config codes today).run.run tree = (.error (.store (.file .notText)), tree) := by
  have hread : (readDictionaries config requested).run.run tree =
      (.error (.store (.file .notText)), tree) := by
    unfold readDictionaries
    rw [run_bind]
    show (ofExcept _ (config.store.snapshot tree (dictionaryCodes config requested)).1).run.run tree = _
    rw [Store.snapshot_stops hbytes]
    rfl
  unfold build
  rw [run_bind, hrequested]
  show (readDictionaries config requested >>= _).run.run tree = _
  rw [run_bind, hread]

/-- What a build that returns has read and written. -/
theorem ends_of_build (hrequested : config.selectLocales codes = .ok requested)
    (h : (build config codes today).Ends tree report after) :
    ∃ dictionaries, (∀ code ∈ dictionaryCodes config requested,
        Entries.get? dictionaries code = config.store.dictionary? tree code) ∧
      (publish config requested dictionaries today).Ends tree report after := by
  by_cases htexts : ∀ code ∈ dictionaryCodes config requested, config.store.HoldsText tree code
  · obtain ⟨dictionaries, hget, hrun⟩ := build_goes_on today hrequested htexts
    exact ⟨dictionaries, hget, hrun.symm.trans h⟩
  · push Not at htexts
    have hstops := build_stops today hrequested htexts
    exact absurd (congrArg Prod.fst (hstops.symm.trans h)) (by simp)

end Reading

section Single

/-- What stands among the built pages is a page with a template in a locale with a dictionary. -/
theorem mem_built_pages {source : Dictionary} {built : BuiltPage} :
    built ∈ builtPages config source (templatesOf config tree config.pages).found
      (withDictionary dictionaries requested) ↔
    ∃ locale ∈ requested, ∃ dictionary, Entries.get? dictionaries locale.code = some dictionary ∧
      ∃ page ∈ config.pages, ∃ template, template? config tree page = some template ∧
        built = builtPage config source locale dictionary (page, template) := by
  simp only [builtPages, withDictionary, templatesOf, List.mem_flatMap, List.mem_filterMap,
    List.mem_map, Option.map_eq_some_iff]
  constructor
  · rintro ⟨-, ⟨locale, hlocale, dictionary, hget, rfl⟩, -,
      ⟨page, hpage, template, htemplate, rfl⟩, rfl⟩
    exact ⟨locale, hlocale, dictionary, hget, page, hpage, template, htemplate, rfl⟩
  · rintro ⟨locale, hlocale, dictionary, hget, page, hpage, template, htemplate, rfl⟩
    exact ⟨_, ⟨locale, hlocale, dictionary, hget, rfl⟩, _,
      ⟨page, hpage, template, htemplate, rfl⟩, rfl⟩

end Single

section Files

/-- Nothing else that a build writes goes to the file of a page in a locale, apart from the line in the robots
file. -/
structure StandsAlone (config : Config) (requested : List Locale) (workingDirectory : Location)
    (page : Page) (locale : Locale) : Prop where
  pages : ∀ other ∈ config.pages, ∀ second ∈ requested,
    (outputPath config other second).spelt workingDirectory =
      (outputPath config page locale).spelt workingDirectory → other = page ∧ second = locale
  files : ∀ name ∈ config.staticFiles,
    (config.outputDirectory.joinText name).spelt workingDirectory ≠
        (outputPath config page locale).spelt workingDirectory ∧
      ((config.outputDirectory.joinText name).join
          ⟨[], [(config.sourceDirectory.joinText name).name]⟩).spelt workingDirectory ≠
        (outputPath config page locale).spelt workingDirectory
  directories : ∀ name ∈ config.staticDirectories,
    ¬ (config.outputDirectory.joinText name).spelt workingDirectory <+:
      (outputPath config page locale).spelt workingDirectory
  sitemap : (config.outputDirectory.joinText sitemapName).spelt workingDirectory ≠
    (outputPath config page locale).spelt workingDirectory

/-- The text in the file of a built page; if this is the robots file, it names the sitemap. -/
def fileText (config : Config) (workingDirectory : Location) (built : BuiltPage) : Text :=
  if (config.outputDirectory.joinText robotsName).spelt workingDirectory =
      built.path.spelt workingDirectory then
    namingSitemap config built.rendering.text
  else built.rendering.text

/-- The robots file can be reached where the sitemap can. -/
theorem locate_robots {place : Location}
    (h : tree.locate (config.outputDirectory.joinText sitemapName) = .ok place) :
    tree.locate (config.outputDirectory.joinText robotsName) =
      .ok ((config.outputDirectory.joinText robotsName).spelt tree.workingDirectory) := by
  have hjoin (name : Text) (hname : FilePath.ofText name = ⟨[], [name]⟩) :
      config.outputDirectory.joinText name =
        ⟨config.outputDirectory.root, config.outputDirectory.parts ++ [name]⟩ := by
    rw [FilePath.joinText, hname]
    rfl
  -- Both files are in the output directory, and to reach the sitemap is to enter this directory.
  rw [hjoin sitemapName (by decide)] at h
  suffices hrobots : ∃ found, tree.locate (config.outputDirectory.joinText robotsName) = .ok found by
    obtain ⟨found, hfound⟩ := hrobots
    rw [hfound, locate_eq_spelt hfound]
  rw [hjoin robotsName (by decide)]
  unfold locate at h ⊢
  simp only [List.foldlM_append] at h ⊢
  obtain ⟨home, hhome, hlast⟩ := bind_eq_ok.mp h
  obtain ⟨next, henter, -⟩ := bind_eq_ok.mp hlast
  refine ⟨along home robotsName, bind_eq_ok.mpr ⟨home, hhome, ?_⟩⟩
  have hrobots : tree.enter home robotsName = .ok (along home robotsName) :=
    enter_eq.mpr ⟨(enter_eq.mp henter).1, rfl⟩
  rw [List.foldlM_cons, hrobots]
  rfl

/-- What is written after the pages leaves a page alone that stands alone. -/
theorem StandsAlone.spares {workingDirectory : Location} {page : Page}
    (halone : StandsAlone config requested workingDirectory page locale)
    {written filed copied mapped : FileTree} (hplain : written.Plain)
    (hwritten : written.workingDirectory = workingDirectory)
    (hfiles : (config.staticFiles.forM (copyStaticFile config)).Ends written ⟨⟩ filed)
    (hdirectories : (config.staticDirectories.forM (copyStaticDirectory config)).Ends filed ⟨⟩ copied)
    {text : Text} (hsitemap : (writeText (config.outputDirectory.joinText sitemapName) text).Ends
      copied () mapped) :
    Spares ((outputPath config page locale).spelt workingDirectory) written mapped := by
  have hfiled : Spares ((outputPath config page locale).spelt workingDirectory) written filed := by
    refine spares_of_for_m (fun name hname _ _ _ hwhere hcopy ↦ ?_) hplain hwritten hfiles
    obtain ⟨htarget, hinside⟩ := halone.files name hname
    exact spares_of_copy_static_file hcopy (by rwa [hwhere]) (by rwa [hwhere])
  have hfiledWhere := hfiled.extended.grows.workingDirectory.trans hwritten
  have hcopied : Spares ((outputPath config page locale).spelt workingDirectory) filed copied := by
    refine spares_of_for_m (fun name hname _ _ hplain hwhere hcopy ↦ ?_)
      (hfiled.extended.plain hplain) hfiledWhere hdirectories
    exact spares_of_copy_static_directory hplain hcopy (by
      rw [hwhere]
      exact halone.directories name hname)
  refine (hfiled.trans hcopied).trans (spares_of_write_text hsitemap ?_)
  rw [hcopied.extended.grows.workingDirectory, hfiledWhere]
  exact halone.sitemap

end Files

section Isolation

end Isolation

/-!
## What a build has written lasts

What a build writes is still there when it ends, so every built page has its file and the sitemap its text
(`Publishes.is_file`, `Publishes.read_sitemap`).
-/

section Lasting

/-- Copying a static file loses at most what its target held. -/
theorem lasts_of_copy_static_file {name : Text}
    (h : (copyStaticFile config name).Ends before ⟨⟩ after) : Lasts before after := by
  rcases ends_of_copy_static_file h with ⟨-, rfl⟩ | ⟨-, made, hmake, hcopy⟩
  · exact .refl _
  · exact (lasts_of_make_directories hmake).trans (lasts_of_copy_file hcopy)

/-- Copying a static directory loses at most what the targets held. -/
theorem lasts_of_copy_static_directory {name : Text}
    (h : (copyStaticDirectory config name).Ends before ⟨⟩ after) : Lasts before after := by
  rcases ends_of_copy_static_directory h with ⟨-, rfl⟩ | ⟨-, hcopy⟩
  · exact .refl _
  · exact lasts_of_copy_directory hcopy

/-- Naming the sitemap loses nothing but the text of the robots file. -/
theorem lasts_of_name_sitemap {result : Unit} (h : (nameSitemap config).Ends before result after) :
    Lasts before after := by
  rcases name_sitemap_cases h with ⟨-, rfl⟩ | ⟨-, text, -, ⟨-, rfl⟩ | ⟨-, hwrite⟩⟩
  · exact .refl _
  · exact .refl _
  · exact lasts_of_write hwrite

/-- Writing pages loses at most what their files held. -/
theorem Writes.lasts {pages : List BuiltPage} (h : Writes before pages after) : Lasts before after := by
  induction h with
  | none tree => exact .refl tree
  | more hwrite _ ih => exact (lasts_of_write_making hwrite).trans ih

/-- A page that was written is a file. -/
theorem Writes.is_file {pages : List BuiltPage} (h : Writes before pages after) {built : BuiltPage}
    (hmem : built ∈ pages) : after.isFile built.path = true := by
  induction h with
  | none tree => exact absurd hmem List.not_mem_nil
  | more hwrite hothers ih =>
      rcases List.mem_cons.mp hmem with rfl | hmem
      · exact hothers.lasts.is_file (is_file_of_write_making hwrite)
      · exact ih hmem

end Lasting

section Published

variable {requested : List Locale} {dictionaries : Entries Dictionary} {today : Text}
  {cleaned written filed copied mapped : FileTree} {report : BuildReport}

/-- What stands when the pages are written is still there when the build ends. -/
theorem Publishes.lasts (h : Publishes config requested dictionaries today before cleaned written filed
    copied mapped report after) : Lasts written after := by
  have hfiled : Lasts written filed :=
    for_m_keeps (fun _ _ _ _ hcopy hlasts ↦ hlasts.trans (lasts_of_copy_static_file hcopy)) h.files
      (.refl written)
  have hcopied : Lasts filed copied :=
    for_m_keeps (fun _ _ _ _ hcopy hlasts ↦ hlasts.trans (lasts_of_copy_static_directory hcopy))
      h.directories (.refl filed)
  have hmapped := lasts_of_write_making (ends_of_write_text h.sitemap)
  exact hfiled.trans (hcopied.trans (hmapped.trans (lasts_of_name_sitemap h.robots)))

/-- A page that was built is a file when the build ends. -/
theorem Publishes.is_file (h : Publishes config requested dictionaries today before cleaned written filed
    copied mapped report after) {built : BuiltPage} (hbuilt : built ∈ report.pages) :
    after.isFile built.path = true :=
  h.lasts.is_file (h.writes.is_file hbuilt)

/-- The sitemap has its text when the build ends. -/
theorem Publishes.read_sitemap (h : Publishes config requested dictionaries today before cleaned written
    filed copied mapped report after) :
    after.readText (config.outputDirectory.joinText sitemapName) =
      .ok (lineFeeds (sitemapFor config today ((withDictionary dictionaries requested).map Prod.fst))) := by
  obtain ⟨place, hlocate, hplace⟩ := node_of_write_making (ends_of_write_text h.sitemap)
  obtain ⟨hextends, hfiles⟩ := ends_of_name_sitemap h.robots
  have hother : mapped.locate (config.outputDirectory.joinText robotsName) ≠ .ok place := by
    have hrobots : FilePath.IsInner robotsName := by decide
    have hsitemap : FilePath.IsInner sitemapName := by decide
    rw [locate_robots hlocate, locate_eq_spelt hlocate, hrobots.spelt, hsitemap.spelt]
    intro hsame
    exact absurd (List.append_cancel_left (Except.ok.inj hsame)) (by decide)
  have hstands := hfiles place _ hplace
  rw [if_neg hother] at hstands
  exact read_text_of_file (locate_of_grows hextends.grows hlocate) hstands

/-- The locales that are built are those requested, if none is left out. -/
theorem built_of_none_skipped
    (h : (requested.filter fun locale ↦ !Entries.has dictionaries locale.code) = []) :
    (withDictionary dictionaries requested).map Prod.fst = requested := by
  rw [List.filter_eq_nil_iff] at h
  unfold withDictionary
  rw [List.map_filterMap]
  refine (List.filterMap_congr fun locale hlocale ↦ ?_).trans (List.filterMap_some (l := requested))
  have hhas := h locale hlocale
  rw [Bool.not_eq_true', Bool.not_eq_false, Entries.has] at hhas
  obtain ⟨dictionary, hget⟩ := Option.isSome_iff_exists.mp hhas
  rw [hget]
  rfl

end Published

end Site

end LocalizedSite
