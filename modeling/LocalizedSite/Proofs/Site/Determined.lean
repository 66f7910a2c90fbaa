import LocalizedSite.Proofs.Site.Confined

/-!
# A build is determined by what stands outside its output

Two builds with the same configuration, codes and date, whose files differ at most below the output
directory, report the same and leave the same files, if both return (`build_determined`). For that the
dictionaries must not be read through the output directory, and if anything stands at the place that the
path of the output directory spells, the path must lead there (`build_undetermined`).
-/

namespace LocalizedSite

namespace Site

open FileTree SiteAction

variable {config : Config} {codes : List Text} {today : Text} {requested : List Locale}
  {first second after rest : FileTree} {report other : BuildReport}

section Twins

/-- Writing the same pages leaves two trees alike. -/
theorem Writes.alike {pages : List BuiltPage} (h : Alike first second) (hfirst : Writes first pages after)
    (hsecond : Writes second pages rest) : Alike after rest := by
  induction hfirst generalizing second with
  | none tree =>
      cases hsecond
      exact h
  | more hwrite _ ih =>
      cases hsecond with
      | more hwriteSecond hothers => exact ih (h.write_making hwrite hwriteSecond) hothers

/-- Copying a static file leaves two trees alike. -/
theorem alike_of_copy_static_file {name : Text} (h : Alike first second)
    (hfirst : (copyStaticFile config name).Ends first ⟨⟩ after)
    (hsecond : (copyStaticFile config name).Ends second ⟨⟩ rest) : Alike after rest := by
  rcases ends_of_copy_static_file hfirst with ⟨hnone, rfl⟩ | ⟨hfile, made, hmake, hcopy⟩
  · rcases ends_of_copy_static_file hsecond with ⟨-, rfl⟩ | ⟨hfile, -⟩
    · exact h
    · rw [h.is_file, hnone] at hfile
      exact absurd hfile (by simp)
  · rcases ends_of_copy_static_file hsecond with ⟨hnone, -⟩ | ⟨-, madeSecond, hmakeSecond, hcopySecond⟩
    · rw [h.is_file, hfile] at hnone
      exact absurd hnone (by simp)
    · exact (h.make_directories hmake hmakeSecond).copy_file hcopy hcopySecond

/-- Copying a static directory that is apart from the output leaves two trees alike. -/
theorem alike_of_copy_static_directory {name : Text} (h : Alike first second) (hfirst : first.IsRegular)
    (hsecond : second.IsRegular) (hnames : config.outputDirectory.parts ≠ [])
    (hname : FilePath.IsInner name) (hapart : AreApart (outputPlace config first.workingDirectory)
      ((config.sourceDirectory.joinText name).spelt first.workingDirectory))
    (hends : (copyStaticDirectory config name).Ends first ⟨⟩ after)
    (hendsSecond : (copyStaticDirectory config name).Ends second ⟨⟩ rest) : Alike after rest := by
  rcases ends_of_copy_static_directory hends with ⟨hnone, rfl⟩ | ⟨hthere, hcopy⟩
  · rcases ends_of_copy_static_directory hendsSecond with ⟨-, rfl⟩ | ⟨hthere, -⟩
    · exact h
    · rw [h.is_directory, hnone] at hthere
      exact absurd hthere (by simp)
  · rcases ends_of_copy_static_directory hendsSecond with ⟨hnone, -⟩ | ⟨-, hcopySecond⟩
    · rw [h.is_directory, hthere] at hnone
      exact absurd hnone (by simp)
    · have hparts : (config.outputDirectory.joinText name).parts ≠ [] := by
        rw [hname.join_text]
        exact List.append_ne_nil_of_left_ne_nil hnames _
      exact h.copy_directory hfirst hsecond hparts rfl (hname.spelt _ _) (hapart.not_prefix _) hcopy
        hcopySecond

/-- Naming the sitemap leaves two trees alike. -/
theorem alike_of_name_sitemap (h : Alike first second) {result another : Unit}
    (hfirst : (nameSitemap config).Ends first result after)
    (hsecond : (nameSitemap config).Ends second another rest) : Alike after rest := by
  rcases name_sitemap_cases hfirst with ⟨hnone, rfl⟩ | ⟨hfile, text, hread, hcases⟩
  · rcases name_sitemap_cases hsecond with ⟨-, rfl⟩ | ⟨hfile, -⟩
    · exact h
    · rw [h.is_file, hnone] at hfile
      exact absurd hfile (by simp)
  · rcases name_sitemap_cases hsecond with ⟨hnone, -⟩ | ⟨-, found, hfound, hcasesSecond⟩
    · rw [h.is_file, hfile] at hnone
      exact absurd hnone (by simp)
    · -- both read the same text, so both add the line or neither does
      rw [h.read_text, hread] at hfound
      obtain rfl := Except.ok.inj hfound
      rcases hcases with ⟨hnamed, rfl⟩ | ⟨hnamed, hwrite⟩
      · rcases hcasesSecond with ⟨-, rfl⟩ | ⟨hunnamed, -⟩
        · exact h
        · rw [hnamed] at hunnamed
          exact absurd hunnamed (by simp)
      · rcases hcasesSecond with ⟨hsecondNamed, -⟩ | ⟨-, hwriteSecond⟩
        · rw [hnamed] at hsecondNamed
          exact absurd hsecondNamed (by simp)
        · exact h.write hwrite hwriteSecond

variable {dictionaries others : Entries Dictionary}
  {cleaned written filed copied mapped cleanedSecond writtenSecond filedSecond copiedSecond
    mappedSecond : FileTree}

/-- The locales that are built depend only on the dictionaries that are read for them. -/
theorem with_dictionary_congr (hsame : ∀ code ∈ dictionaryCodes config requested,
      Entries.get? others code = Entries.get? dictionaries code) :
    withDictionary others requested = withDictionary dictionaries requested := by
  unfold withDictionary
  exact List.filterMap_congr fun locale hlocale ↦ by rw [hsame _ (mem_dictionary_codes hlocale)]

/-- What is published with the same dictionaries from cleaned trees that are alike is reported in the same
way. -/
theorem Publishes.same_report (h : Publishes config requested dictionaries today first cleaned written filed
      copied mapped report after)
    (hother : Publishes config requested others today second cleanedSecond writtenSecond filedSecond
      copiedSecond mappedSecond other rest)
    (halike : Alike cleaned cleanedSecond)
    (hsame : ∀ code ∈ dictionaryCodes config requested,
      Entries.get? others code = Entries.get? dictionaries code) : other = report := by
  have hsource : Entries.get? others config.source.code = Entries.get? dictionaries config.source.code :=
    hsame _ (List.mem_append_right _ (List.mem_singleton_self _))
  have hwith := with_dictionary_congr hsame
  have hskipped : (requested.filter fun locale ↦ !Entries.has others locale.code) =
      requested.filter fun locale ↦ !Entries.has dictionaries locale.code :=
    List.filter_congr fun locale hlocale ↦ by
      rw [Entries.has, Entries.has, hsame _ (mem_dictionary_codes hlocale)]
  have htemplates : templatesOf config cleanedSecond config.pages = templatesOf config cleaned config.pages :=
    templates_congr halike.agree fun _ _ ↦ id
  have hpages : other.pages = report.pages := by
    rw [hother.pages, h.pages, hwith, hsource, htemplates]
  have hlocales : other.locales = report.locales := by rw [hother.locales, h.locales, hwith]
  have hleft : other.skippedLocales = report.skippedLocales := by
    rw [hother.skipped, h.skipped, hskipped]
  have hmissing : other.missingTemplates = report.missingTemplates := by
    rw [hother.missing, h.missing, htemplates]
  have hplace : other.sitemap = report.sitemap := by rw [hother.place, h.place]
  obtain ⟨_, _, _, _, _⟩ := other
  obtain ⟨_, _, _, _, _⟩ := report
  simp only at hlocales hleft hmissing hpages hplace
  rw [hlocales, hleft, hmissing, hpages, hplace]

/-- What is published with the same dictionaries from cleaned trees that are alike is the same. -/
theorem Publishes.alike (h : Publishes config requested dictionaries today first cleaned written filed copied
      mapped report after)
    (hother : Publishes config requested others today second cleanedSecond writtenSecond filedSecond
      copiedSecond mappedSecond report rest)
    (hclean : Cleans config first cleaned) (hcleanSecond : Cleans config second cleanedSecond)
    (hwhere : second.workingDirectory = first.workingDirectory)
    (hlayout : IsContained config first.workingDirectory)
    (hrequested : ∀ locale ∈ requested, ∃ entry ∈ config.locales, entry.2 = locale)
    (halike : Alike cleaned cleanedSecond)
    (hsame : ∀ code ∈ dictionaryCodes config requested,
      Entries.get? others code = Entries.get? dictionaries code) : Alike after rest := by
  -- After each part of the two builds the files are alike.
  obtain ⟨hwritten, hfiled, -⟩ := h.underway hclean hlayout hrequested
  have hlayoutSecond := hlayout
  rw [← hwhere] at hlayoutSecond
  obtain ⟨hwrittenSecond, hfiledSecond, -⟩ := hother.underway hcleanSecond hlayoutSecond hrequested
  have halikeWritten := h.writes.alike halike hother.writes
  have halikeFiled := for_m_relates (fun _ _ _ _ _ _ hfirst hsecond halike ↦
    alike_of_copy_static_file halike hfirst hsecond) h.files hother.files halikeWritten
  let twins (one another : FileTree) : Prop :=
    Underway (outputPlace config first.workingDirectory) cleaned one ∧
      Underway (outputPlace config second.workingDirectory) cleanedSecond another ∧ Alike one another
  have htwins : twins copied copiedSecond := by
    refine for_m_relates (fun name hname one another _ _ hfirst hsecond hstate ↦ ?_) h.directories
      hother.directories ⟨hfiled, hfiledSecond, halikeFiled⟩
    obtain ⟨hone, hanother, halike⟩ := hstate
    obtain ⟨hinner, hapart⟩ := hlayout.directories name hname
    refine ⟨hone.copy_static_directory hclean hinner hapart hfirst,
      hanother.copy_static_directory hcleanSecond hinner (hlayoutSecond.directories name hname).2 hsecond,
      alike_of_copy_static_directory halike hone.regular hanother.regular hclean.names hinner ?_ hfirst
        hsecond⟩
    rw [hone.grows.workingDirectory, hclean.workingDirectory]
    exact hapart
  have hsitemap := hother.sitemap
  rw [with_dictionary_congr hsame] at hsitemap
  have halikeMapped := htwins.2.2.write_making (ends_of_write_text h.sitemap) (ends_of_write_text hsitemap)
  exact alike_of_name_sitemap halikeMapped h.robots hother.robots

end Twins

/-- A built page comes from what stood before the build: the file of its template, and the dictionaries of
its locale and of the source. If no other page has its path and nothing else is written there, it is in its
file. -/
structure ComesFrom (config : Config) (locales : List Locale) (before after : FileTree) (built : BuiltPage)
    (page : Page) (locale : Locale) (template : Text) (dictionary : Dictionary) : Prop where
  listed : page ∈ config.pages
  requested : locale ∈ locales
  read : before.node? ((config.templatePath page).spelt before.workingDirectory) =
    some (.file (.text template))
  held : config.store.dictionary? before locale.code = some dictionary
  rendered : built = builtPage config ((config.store.dictionary? before config.source.code).getD [])
    locale dictionary (page, lineFeeds template)
  written : (∀ other ∈ config.pages, ∀ second ∈ locales,
      (outputPath config other second).spelt before.workingDirectory =
        (outputPath config page locale).spelt before.workingDirectory → other = page ∧ second = locale) →
    IsUnshadowed config before ((outputPath config page locale).spelt before.workingDirectory) →
    after.content (outputPath config page locale) = .ok (.text built.rendering.text)

section Determined

/-- A dictionary is the same where the same stands at all places that the path of its file passes. -/
theorem dictionary_of_stations {code : Text} (hwhere : second.workingDirectory = first.workingDirectory)
    (hsame : ∀ place ∈ (config.store.path code).stations first.workingDirectory,
      second.node? place = first.node? place) :
    config.store.dictionary? second code = config.store.dictionary? first code := by
  unfold Store.dictionary?
  rw [read_text_of_stations hwhere hsame]

/-- The pages that are published come from what stood before the build. -/
theorem Publishes.comes_from {before cleaned written filed copied mapped : FileTree}
    {dictionaries : Entries Dictionary}
    (h : Publishes config requested dictionaries today before cleaned written filed copied mapped report
      after)
    (hclean : Cleans config before cleaned) (hlayout : IsContained config before.workingDirectory)
    (hrequested : ∀ locale ∈ requested, ∃ entry ∈ config.locales, entry.2 = locale)
    (hget : ∀ code ∈ dictionaryCodes config requested,
      Entries.get? dictionaries code = config.store.dictionary? before code)
    {built : BuiltPage} (hbuilt : built ∈ report.pages) :
    ∃ page locale template dictionary,
      ComesFrom config requested before after built page locale template dictionary := by
  have hfrom := hbuilt
  rw [h.pages] at hfrom
  obtain ⟨locale, hlocale, dictionary, hdictionary, page, hpage, text, htext, heq⟩ :=
    mem_built_pages.mp hfrom
  obtain ⟨place, template, hlocate, hplace, rfl⟩ := file_of_read_text (to_option_iff.mp htext)
  have hspelt := locate_eq_spelt hlocate
  rw [hclean.workingDirectory] at hspelt
  rw [hspelt] at hplace
  refine ⟨page, locale, template, dictionary, hpage, hlocale, hclean.files _ _ hplace, ?_, ?_,
    fun hdistinct hunshadowed ↦ ?_⟩
  · rw [← hget _ (mem_dictionary_codes hlocale), hdictionary]
  · rw [heq, hget _ (List.mem_append_right _ (List.mem_singleton_self _))]
  · have hpath : built.path = outputPath config page locale := by
      rw [heq]
      rfl
    rw [← hpath] at hdistinct hunshadowed ⊢
    refine h.page_stands hclean hlayout hrequested hbuilt (fun other hother hsame ↦ ?_) hunshadowed
    -- what is written to the same place is the same page in the same locale
    rw [h.pages] at hother
    obtain ⟨second, hsecond, held, hheld, another, hanother, read, hread, rfl⟩ :=
      mem_built_pages.mp hother
    obtain ⟨rfl, rfl⟩ := hdistinct another hanother second hsecond hsame
    obtain rfl := Option.some.inj (hdictionary.symm.trans hheld)
    obtain rfl := Option.some.inj (htext.symm.trans hread)
    rw [heq]

/-- Two builds whose files differ at most below the output directory report the same and leave the same
files, if both return. Nothing stands differently outside the output directory than before, apart from
directories on the way to it that were not there; and every page comes from what stood before the build. -/
theorem build_determined (hrequested : config.selectLocales codes = .ok requested)
    (hlayout : IsContained config first.workingDirectory)
    (hdictionaries : ∀ code ∈ dictionaryCodes config requested,
      ∀ place ∈ (config.store.path code).stations first.workingDirectory,
        ¬ outputPlace config first.workingDirectory <+: place)
    (hfirst : IsSound config first) (hsecond : IsSound config second)
    (hwhere : second.workingDirectory = first.workingDirectory)
    (hagree : ChangesBelow (outputPlace config first.workingDirectory) first second)
    (h : (build config codes today).Ends first report after)
    (hother : (build config codes today).Ends second other rest) :
    other = report ∧ Alike after rest ∧
      (∀ place, ¬ outputPlace config first.workingDirectory <+: place →
        after.node? place = first.node? place ∨ first.node? place = none ∧
          after.node? place = some .directory ∧
            place ∈ config.outputDirectory.stations first.workingDirectory) ∧
      ∀ built ∈ report.pages, ∃ page locale template dictionary,
        ComesFrom config requested first after built page locale template dictionary := by
  obtain ⟨dictionaries, hget, hpublish⟩ := ends_of_build hrequested h
  obtain ⟨others, hgetOther, hpublishOther⟩ := ends_of_build hrequested hother
  obtain ⟨cleaned, _, _, _, _, hdone⟩ := ends_of_publish hpublish
  obtain ⟨cleanedSecond, _, _, _, _, hdoneOther⟩ := ends_of_publish hpublishOther
  have hclean := cleans_of_clean_output hfirst hdone.cleans
  have hcleanSecond := cleans_of_clean_output hsecond hdoneOther.cleans
  have hlocales : ∀ locale ∈ requested, ∃ entry ∈ config.locales, entry.2 = locale :=
    fun locale hlocale ↦ mem_locales_of_select hrequested hlocale
  have hsame : ∀ code ∈ dictionaryCodes config requested,
      Entries.get? others code = Entries.get? dictionaries code := fun code hcode ↦ by
    rw [hget code hcode, hgetOther code hcode]
    exact dictionary_of_stations hwhere fun place hplace ↦
      hagree place (hdictionaries code hcode place hplace)
  have hcleaned := alike_of_clean_output hfirst hsecond hwhere hagree hdone.cleans hdoneOther.cleans
  obtain rfl := hdone.same_report hdoneOther hcleaned hsame
  have halike := hdone.alike hdoneOther hclean hcleanSecond hwhere hlayout hlocales hcleaned hsame
  refine ⟨rfl, halike, fun place hplace ↦ ?_, fun built hbuilt ↦
    hdone.comes_from hclean hlayout hlocales hget hbuilt⟩
  obtain ⟨-, -, -, -, hlast⟩ := hdone.underway hclean hlayout hlocales
  rw [hlast.below place hplace]
  exact hclean.outside place hplace

/-- A page of an earlier build does not survive: the output is as it is after a build into no directory. -/
theorem build_determined_teas :
    let english : Locale := ⟨"en".toList, [], "en_GB".toList, "en".toList, "en".toList,
      "English".toList, [], none, []⟩
    let home : Page := ⟨"home".toList, "index.html".toList, "index.html".toList, none⟩
    let config : Config :=
      { baseUrl := "https://tea".toList, brandName := [], source := english,
        locales := [("en".toList, english)], pages := [home],
        vocabulary := ⟨[], [], [], [], [], [], [], []⟩, sourceDirectory := FilePath.ofText "src".toList,
        templatesDirectory := FilePath.ofText "src/templates".toList,
        localesDirectory := FilePath.ofText "src/locales".toList,
        outputDirectory := FilePath.ofText "dist".toList, staticFiles := ["tea.css".toList],
        staticDirectories := ["img".toList], hiddenPages := [], exemptPages := [],
        translation := .standard }
    let below (names : List String) : Location := "work".toList :: names.map String.toList
    let first : FileTree := ⟨below [], [(below [], .directory), (below ["src"], .directory),
      (below ["src", "templates"], .directory), (below ["src", "locales"], .directory),
      (below ["src", "img"], .directory), (below ["src", "img", "tea.svg"], .file (.text "tea".toList)),
      (below ["src", "tea.css"], .file (.text "teas".toList)),
      (below ["src", "templates", "index.html"], .file (.text "Teas".toList)),
      (below ["src", "locales", "en.json"], .file (.text "\x7b\x7d".toList))]⟩
    let second : FileTree := (first.setNode (below ["dist"]) .directory).setNode
      (below ["dist", "old.html"]) (.file (.text "Old teas".toList))
    ∃ report after other rest, (build config [] "2025-06-01".toList).Ends first report after ∧
      (build config [] "2025-06-01".toList).Ends second other rest ∧ other = report ∧ Alike after rest ∧
      rest.isFile (FilePath.ofText "dist/old.html".toList) = false ∧
      rest.readText (FilePath.ofText "dist/index.html".toList) = .ok "Teas".toList := by
  intro english home config below first second
  have hrequested : config.selectLocales [] = .ok [english] := by decide +kernel
  have hlayout : IsContained config first.workingDirectory :=
    ⟨by decide, by decide, List.forall_mem_singleton.mpr ⟨by decide, by decide, by decide⟩,
      List.forall_mem_singleton.mpr ⟨by decide, by decide, by decide⟩⟩
  have hfirst : first.IsRegular := by
    refine regular_of_nodes (by decide) fun entry hentry ↦ ?_
    simp only [first, List.mem_cons, List.not_mem_nil, or_false] at hentry
    rcases hentry with rfl | rfl | rfl | rfl | rfl | rfl | rfl | rfl | rfl <;> exact ⟨by decide, rfl, rfl⟩
  have hdist : (first.setNode (below ["dist"]) .directory).IsRegular :=
    hfirst.set_node (show first.node? (below []) = _ from rfl) (by decide)
      (show first.node? (below ["dist"]) ≠ _ by simp [show first.node? (below ["dist"]) = none from rfl]) _
  have hsecond : second.IsRegular := by
    refine hdist.set_node (show FileTree.node? _ (below ["dist"]) = _ from rfl) (by decide) ?_ _
    show FileTree.node? _ (below ["dist", "old.html"]) ≠ _
    rw [show FileTree.node? _ (below ["dist", "old.html"]) = none from rfl]
    simp
  have hagree : ChangesBelow (outputPlace config first.workingDirectory) first second := by
    intro place hplace
    have hother {names : List String} (hnames : below ["dist"] <+: below names) : place ≠ below names :=
      fun heq ↦ hplace (heq ▸ hnames)
    rw [node_set_node _ (by decide), node_set_node _ (by decide), if_neg (hother (by decide)),
      if_neg (hother (by decide))]
  obtain ⟨report, hends⟩ := ends_of_run
    (by decide +kernel : ((build config [] "2025-06-01".toList).run.run first).1.toOption.isSome = true)
  obtain ⟨other, hendsSecond⟩ := ends_of_run
    (by decide +kernel : ((build config [] "2025-06-01".toList).run.run second).1.toOption.isSome = true)
  obtain ⟨hreport, halike, -⟩ := build_determined hrequested hlayout (by decide)
    (sound_of_forward hfirst rfl (by decide)) (sound_of_forward hsecond rfl (by decide)) rfl hagree hends
    hendsSecond
  refine ⟨report, _, other, _, hends, hendsSecond, hreport, halike, ?_, ?_⟩
  · rw [halike.is_file]
    decide +kernel
  · rw [halike.read_text]
    decide +kernel

/-- It is not enough that the output directory is apart from everything that is configured. A dictionary may
be read through the output directory, so that a build finds it or not. A path that leads back may not lead
to the output directory before a build, so that a file of an earlier build survives. And directories are
made on the way to the output directory. -/
theorem build_undetermined :
    let english : Locale := ⟨"en".toList, [], "en_GB".toList, "en".toList, "en".toList,
      "English".toList, [], none, []⟩
    let german : Locale := ⟨"../../dist/de".toList, "de/".toList, "de_DE".toList, "de".toList, "de".toList,
      "Deutsch".toList, [], none, []⟩
    let home : Page := ⟨"home".toList, "index.html".toList, "index.html".toList, none⟩
    let config (output : String) (locales : List Locale) : Config :=
      { baseUrl := "https://tea".toList, brandName := [], source := english,
        locales := locales.map fun locale ↦ (locale.code, locale), pages := [home],
        vocabulary := ⟨[], [], [], [], [], [], [], []⟩, sourceDirectory := FilePath.ofText "src".toList,
        templatesDirectory := FilePath.ofText "src/templates".toList,
        localesDirectory := FilePath.ofText "src/locales".toList,
        outputDirectory := FilePath.ofText output.toList, staticFiles := [], staticDirectories := [],
        hiddenPages := [], exemptPages := [], translation := .standard }
    let below (names : List String) : Location := "work".toList :: names.map String.toList
    let tree : FileTree := ⟨below [], [(below [], .directory), (below ["src"], .directory),
      (below ["src", "templates"], .directory), (below ["src", "locales"], .directory),
      (below ["src", "templates", "index.html"], .file (.text "Teas".toList)),
      (below ["src", "locales", "en.json"], .file (.text "\x7b\x7d".toList))]⟩
    let grown (name text : String) : FileTree := (tree.setNode (below ["dist"]) .directory).setNode
      (below ["dist", name]) (.file (.text text.toList))
    let output (config : Config) := outputPlace config (below [])
    let allowed (config : Config) : Prop := IsContained config (below []) ∧
      AreApart (output config) (config.templatesDirectory.spelt (below [])) ∧
      AreApart (output config) (config.localesDirectory.spelt (below []))
    let differ (config : Config) (first : FileTree) (file : String) : Prop :=
      allowed config ∧ ChangesBelow (output config) first tree ∧
        ∃ report after other rest, (build config [] "2025-06-01".toList).Ends first report after ∧
          (build config [] "2025-06-01".toList).Ends tree other rest ∧
          after.isFile (FilePath.ofText file.toList) = true ∧
          rest.isFile (FilePath.ofText file.toList) = false
    differ (config "dist" [english, german]) (grown "de.json" "\x7b\x7d") "dist/de/index.html" ∧
      differ (config "build/../dist" [english]) (grown "old.html" "Old teas") "dist/old.html" ∧
      allowed (config "out/dist" [english]) ∧
      ¬ output (config "out/dist" [english]) <+: below ["out"] ∧
      ∃ report after, (build (config "out/dist" [english]) [] "2025-06-01".toList).Ends tree report after ∧
        tree.isDirectory (FilePath.ofText "out".toList) = false ∧
        after.isDirectory (FilePath.ofText "out".toList) = true := by
  intro english german home config below tree grown output allowed differ
  have hallowed (name : String) (locales : List Locale)
      (hlocales : ∀ locale ∈ locales, FilePath.IsInner locale.pathPrefix)
      (htemplates : AreApart (output (config name locales)) (below ["src", "templates"]))
      (hdictionaries : AreApart (output (config name locales)) (below ["src", "locales"])) :
      allowed (config name locales) := by
    refine ⟨⟨fun entry hentry ↦ ?_, List.forall_mem_singleton.mpr ?_, by simp [config], by simp [config]⟩,
      htemplates, hdictionaries⟩
    case refine_2 => exact (by decide : FilePath.IsInner "index.html".toList)
    obtain ⟨locale, hlocale, rfl⟩ := List.mem_map.mp hentry
    exact hlocales locale hlocale
  have hchanges (config : Config) (houtput : output config = below ["dist"]) (name text : String) :
      ChangesBelow (output config) (grown name text) tree := by
    intro place hplace
    rw [houtput] at hplace
    have hother {names : List String} (hnames : below ["dist"] <+: below names) : place ≠ below names :=
      fun heq ↦ hplace (heq ▸ hnames)
    have hinside : below ["dist"] <+: below ["dist", name] := ⟨[name.toList], rfl⟩
    rw [node_set_node _ (by simp [below]), node_set_node _ (by decide), if_neg (hother hinside),
      if_neg (hother (List.prefix_refl _))]
  have hdiffer (config : Config) (first : FileTree) (file : String) (hconfig : allowed config)
      (hagree : ChangesBelow (output config) first tree)
      (hfirst : ((build config [] "2025-06-01".toList).run.run first).1.toOption.isSome = true ∧
        ((build config [] "2025-06-01".toList).run.run first).2.isFile
          (FilePath.ofText file.toList) = true)
      (hsecond : ((build config [] "2025-06-01".toList).run.run tree).1.toOption.isSome = true ∧
        ((build config [] "2025-06-01".toList).run.run tree).2.isFile
          (FilePath.ofText file.toList) = false) : differ config first file := by
    obtain ⟨report, hends⟩ := ends_of_run hfirst.1
    obtain ⟨other, hendsSecond⟩ := ends_of_run hsecond.1
    exact ⟨hconfig, hagree, report, _, other, _, hends, hendsSecond, hfirst.2, hsecond.2⟩
  refine ⟨hdiffer _ _ _ (hallowed _ _ (by decide) ⟨by decide, by decide⟩ ⟨by decide, by decide⟩)
      (hchanges _ (by decide) _ _) (by decide +kernel) (by decide +kernel),
    hdiffer _ _ _ (hallowed _ _ (by decide) ⟨by decide, by decide⟩ ⟨by decide, by decide⟩)
      (hchanges _ (by decide) _ _) (by decide +kernel) (by decide +kernel),
    hallowed _ _ (by decide) ⟨by decide, by decide⟩ ⟨by decide, by decide⟩, by decide, ?_⟩
  have hrun : ((build (config "out/dist" [english]) [] "2025-06-01".toList).run.run tree).1.toOption.isSome =
      true ∧ ((build (config "out/dist" [english]) [] "2025-06-01".toList).run.run tree).2.isDirectory
        (FilePath.ofText "out".toList) = true := by decide +kernel
  obtain ⟨report, hends⟩ := ends_of_run hrun.1
  exact ⟨report, _, hends, by decide, hrun.2⟩

end Determined

end Site

end LocalizedSite
