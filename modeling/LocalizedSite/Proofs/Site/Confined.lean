import LocalizedSite.Proofs.Files.CopiedDirectory
import LocalizedSite.Proofs.Site.Isolation

/-!
# What a build leaves alone

A build removes what stands below its output directory and makes the directory again (`bare_of_clean_output`).
If the names in the configuration do not lead out of that directory, every later action leaves everything else
as it is (`Underway`), and so does the build (`Publishes.underway`).
-/

namespace LocalizedSite

namespace Site

open FileTree SiteAction

variable {config : Config} {before cleaned current after : FileTree} {base place : Location}

/-- The place of the output directory. -/
def outputPlace (config : Config) (workingDirectory : Location) : Location :=
  config.outputDirectory.spelt workingDirectory

section Cleaning

/-- What is left of some files when everything below a place is gone. -/
structure IsBare (base : Location) (before bare : FileTree) : Prop where
  regular : bare.IsRegular
  workingDirectory : bare.workingDirectory = before.workingDirectory
  below : ∀ place, base <+: place → place ≠ [] → bare.node? place = none
  elsewhere : ChangesBelow base before bare

/-- A directory that is removed has a name. -/
theorem parts_of_remove_directory {path : FilePath} (h : before.removeDirectory path = .ok after) :
    path.parts ≠ [] := by
  intro hparts
  unfold removeDirectory at h
  rw [if_pos (List.isEmpty_iff.mpr hparts)] at h
  exact absurd h (by simp [throw, throwThe, MonadExceptOf.throw, bind, Except.bind])

/-- The files of a site are sound: each place is listed once, relative paths begin in a directory, and if
anything stands at the place that the path of the output directory spells, the path leads there. -/
structure IsSound (config : Config) (tree : FileTree) : Prop where
  regular : tree.IsRegular
  home : tree.node? tree.workingDirectory = some .directory
  output : tree.node? (outputPlace config tree.workingDirectory) ≠ none →
    tree.locate config.outputDirectory = .ok (outputPlace config tree.workingDirectory)

/-- A path of the output directory that does not lead back leads to what it spells. -/
theorem sound_of_forward {tree : FileTree} (hregular : tree.IsRegular)
    (hhome : tree.node? tree.workingDirectory = some .directory)
    (hup : upName ∉ config.outputDirectory.parts) : IsSound config tree := by
  refine ⟨hregular, hhome, fun hthere ↦ ?_⟩
  have hplace : outputPlace config tree.workingDirectory =
      tree.startOf config.outputDirectory ++ config.outputDirectory.parts := foldl_along hup _
  rw [hplace] at hthere ⊢
  exact hregular.closed.locate hup hthere

/-- A directory that was emptied and removed leaves nothing below its place. -/
theorem bare_of_remove_directory {path : FilePath} {emptied bare : FileTree} (hregular : before.IsRegular)
    (hempty : before.emptyDirectory path = .ok emptied) (hremove : emptied.removeDirectory path = .ok bare) :
    IsBare (path.spelt before.workingDirectory) before bare := by
  obtain ⟨location, hlocate, -, rfl⟩ := empty_directory_eq hempty
  obtain ⟨other, hother, -, rfl⟩ := remove_directory_eq hremove
  obtain rfl : location = path.spelt before.workingDirectory := locate_eq_spelt hlocate
  have hsame := locate_eq_spelt hother
  obtain rfl : other = path.spelt before.workingDirectory := hsame
  generalize path.spelt before.workingDirectory = base
  refine ⟨?_, rfl, fun place hplace hroot ↦ ?_, fun place hplace ↦ ?_⟩
  · -- what a kept place stands in is kept, since it is not below the directory either
    refine (hregular.restrict fun location name hkeep ↦ ?_).restrict fun location name hkeep ↦ ?_
    · simp only [Bool.or_eq_true, Bool.not_eq_true', beq_iff_eq] at hkeep ⊢
      refine .inl (Bool.eq_false_iff.mpr fun hunder ↦ ?_)
      rw [List.isPrefixOf_iff_prefix] at hunder
      rcases hkeep with hkeep | rfl
      · exact Bool.eq_false_iff.mp hkeep
          (List.isPrefixOf_iff_prefix.mpr (hunder.trans (List.prefix_append ..)))
      · exact absurd hunder.length_le (by simp)
    · simp only [Bool.not_eq_true'] at hkeep ⊢
      refine Bool.eq_false_iff.mpr fun hunder ↦ Bool.eq_false_iff.mp hkeep ?_
      rw [List.isPrefixOf_iff_prefix] at hunder ⊢
      exact hunder.trans (List.prefix_append ..)
  · rw [node_restrict _ _ hroot, List.isPrefixOf_iff_prefix.mpr hplace]
    rfl
  · have hunder : base.isPrefixOf place = false :=
      Bool.eq_false_iff.mpr fun heq ↦ hplace (List.isPrefixOf_iff_prefix.mp heq)
    by_cases hroot : place = []
    · rw [hroot]
      rfl
    · rw [node_restrict _ _ hroot, node_restrict _ _ hroot, hunder]
      rfl

/-- Where nothing stands, nothing stands below. -/
theorem bare_of_none (hregular : before.IsRegular) (hfree : before.node? base = none) :
    IsBare base before before := by
  refine ⟨hregular, rfl, fun place hplace _ ↦ ?_, fun _ _ ↦ rfl⟩
  obtain ⟨names, rfl⟩ := hplace
  by_contra hthere
  exact hregular.closed.above hthere hfree

/-- Cleaning the output removes what stands below the output directory and makes the directory. -/
theorem bare_of_clean_output (hsound : IsSound config before)
    (h : (cleanOutput config).Ends before () cleaned) : config.outputDirectory.parts ≠ [] ∧
      ∃ bare, IsBare (outputPlace config before.workingDirectory) before bare ∧
        bare.makeDirectories config.outputDirectory = .ok cleaned := by
  rcases ends_of_clean_output h with ⟨emptied, removed, hempty, hremove, hmake⟩ | ⟨hnone, hmake⟩
  · exact ⟨parts_of_remove_directory hremove, removed,
      bare_of_remove_directory hsound.regular hempty hremove, hmake⟩
  · have hfree : before.node? (outputPlace config before.workingDirectory) = none := by
      by_contra hthere
      unfold at? at hnone
      rw [hsound.output hthere] at hnone
      exact hthere hnone
    refine ⟨fun hparts ↦ ?_, before, bare_of_none hsound.regular hfree, hmake⟩
    -- without names the path would lead to the directory in which it begins
    have hstart : before.node? (outputPlace config before.workingDirectory) = some .directory := by
      unfold outputPlace FilePath.spelt
      rw [hparts, List.foldl_nil]
      split
      · rfl
      · exact hsound.home
    rw [hstart] at hfree
    exact absurd hfree (by simp)

/-- What cleaning the output does: the output directory is empty, it is reached by its path, and elsewhere
only directories that its path passes are made. -/
structure Cleans (config : Config) (before cleaned : FileTree) : Prop where
  names : config.outputDirectory.parts ≠ []
  regular : cleaned.IsRegular
  workingDirectory : cleaned.workingDirectory = before.workingDirectory
  reached : cleaned.Reaches config.outputDirectory (outputPlace config before.workingDirectory)
  files : ∀ place content, cleaned.node? place = some (.file content) →
    before.node? place = some (.file content)
  outside : ∀ place, ¬ outputPlace config before.workingDirectory <+: place →
    cleaned.node? place = before.node? place ∨ before.node? place = none ∧
      cleaned.node? place = some .directory ∧
        place ∈ config.outputDirectory.stations before.workingDirectory

/-- The output of sound files is cleaned. -/
theorem cleans_of_clean_output (hsound : IsSound config before)
    (h : (cleanOutput config).Ends before () cleaned) : Cleans config before cleaned := by
  obtain ⟨hnames, bare, hbare, hmake⟩ := bare_of_clean_output hsound h
  have hwhere := (leads_of_make_directories hmake).1.workingDirectory.trans hbare.workingDirectory
  refine ⟨hnames, hbare.regular.make_directories hmake, hwhere, ?_, fun place content hplace ↦ ?_,
    fun place hplace ↦ ?_⟩
  · have hreached := reaches_of_make_directories hnames hmake
    rw [hwhere] at hreached
    exact hreached
  · have hfile := file_of_make_directories hmake hplace
    by_cases hbelow : outputPlace config before.workingDirectory <+: place
    · rw [hbare.below place hbelow (ne_root hfile (by simp))] at hfile
      exact absurd hfile (by simp)
    · rwa [hbare.elsewhere place hbelow] at hfile
  · rw [← hbare.elsewhere place hplace, ← hbare.workingDirectory]
    exact node_of_make_directories_cases hmake place

/-- Two cleaned trees are alike, if they differed at most below the output directory. -/
theorem alike_of_clean_output {first second rest : FileTree} (hfirst : IsSound config first)
    (hsecond : IsSound config second) (hwhere : second.workingDirectory = first.workingDirectory)
    (hagree : ChangesBelow (outputPlace config first.workingDirectory) first second)
    (h : (cleanOutput config).Ends first () cleaned) (hother : (cleanOutput config).Ends second () rest) :
    Alike cleaned rest := by
  obtain ⟨-, bare, hbare, hmake⟩ := bare_of_clean_output hfirst h
  obtain ⟨-, other, hbareOther, hmakeOther⟩ := bare_of_clean_output hsecond hother
  rw [hwhere] at hbareOther
  have halike : Alike bare other := by
    refine ⟨by rw [hbare.workingDirectory, hbareOther.workingDirectory, hwhere], fun place ↦ ?_⟩
    by_cases hbelow : outputPlace config first.workingDirectory <+: place
    · by_cases hroot : place = []
      · rw [hroot]
        rfl
      · rw [hbare.below place hbelow hroot, hbareOther.below place hbelow hroot]
    · rw [hbare.elsewhere place hbelow, hbareOther.elsewhere place hbelow, hagree place hbelow]
  exact halike.make_directories hmake hmakeOther

end Cleaning

/-- Neither of two places stands below the other one. -/
structure AreApart (first second : Location) : Prop where
  notAbove : ¬ first <+: second
  notBelow : ¬ second <+: first

/-- Nothing below one of two places that are apart is below the other one. -/
theorem AreApart.not_prefix {first second : Location} (h : AreApart first second) (front names : Location) :
    ¬ first ++ front <+: second ++ names := by
  intro hunder
  rcases List.prefix_or_prefix_of_prefix ((List.prefix_append first front).trans hunder)
    (List.prefix_append second names) with habove | hbelow
  · exact h.notAbove habove
  · exact h.notBelow hbelow

/-- A build has gone on from the cleaned files, and has changed only what stands below a place. -/
structure Underway (base : Location) (cleaned current : FileTree) : Prop where
  regular : current.IsRegular
  grows : cleaned.Grows current
  below : ChangesBelow base cleaned current

section Operations

variable {output source : FilePath} {names : List Text} {content : Content}
  (hreached : cleaned.Reaches output base) (hup : upName ∉ names)
include hreached hup

/-- Making a directory below the output directory, or that directory itself. -/
theorem Underway.make_directories (h : Underway base cleaned current) {path : FilePath}
    (hroot : path.root = output.root) (hparts : path.parts <+: output.parts ++ names)
    (hmake : current.makeDirectories path = .ok after) : Underway base cleaned after :=
  ⟨h.regular.make_directories hmake, h.grows.trans (leads_of_make_directories hmake).1,
    h.below.trans (changes_of_make_directories (hreached.of_grows h.grows) hup hroot hparts hmake)⟩

variable (hnames : output.parts ≠ [])
include hnames

/-- Writing a file below the output directory. -/
theorem Underway.write (h : Underway base cleaned current)
    (hwrite : current.write (output.join ⟨[], names⟩) content = .ok after) :
    Underway base cleaned after :=
  ⟨h.regular.write (List.append_ne_nil_of_left_ne_nil hnames _) hwrite,
    h.grows.trans (extends_of_write hwrite).grows,
    h.below.trans (changes_of_write (hreached.of_grows h.grows) hup hwrite)⟩

/-- Writing a file below the output directory, with its directory. -/
theorem Underway.write_making (h : Underway base cleaned current)
    (hwrite : current.writeMaking (output.join ⟨[], names⟩) content = .ok after) :
    Underway base cleaned after := by
  obtain ⟨made, hmade, hwrite⟩ := bind_eq_ok.mp hwrite
  have hparent : (output.join ⟨[], names⟩).parent.parts <+: output.parts ++ names := List.dropLast_prefix _
  exact (h.make_directories hreached hup (by rfl) hparent hmade).write hreached hup hnames hwrite

/-- Copying a file to a place below the output directory. -/
theorem Underway.copy_file (h : Underway base cleaned current)
    (hcopy : current.copyFile source (output.join ⟨[], names⟩) = .ok after) :
    Underway base cleaned after := by
  have hname : source.name ≠ upName := by
    obtain ⟨held, hheld, -⟩ := bind_eq_ok.mp hcopy
    obtain ⟨place, hlocate, hplace⟩ := bind_eq_ok.mp hheld
    have hfile : current.node? place ≠ some .directory := by
      intro hdirectory
      rw [hdirectory] at hplace
      exact absurd hplace (by simp)
    by_cases hparts : source.parts = []
    · unfold FilePath.name
      rw [hparts]
      decide
    · obtain ⟨-, -, hname, -⟩ := h.regular.closed.locate_file hparts hlocate hfile
      exact hname
  obtain ⟨held, path, rfl | rfl, hwrite⟩ := copy_file_eq hcopy
  · exact h.write hreached hup hnames hwrite
  · have hinside : (output.join ⟨[], names⟩).join ⟨[], [source.name]⟩ =
        output.join ⟨[], names ++ [source.name]⟩ := by
      show FilePath.mk output.root (output.parts ++ names ++ [_]) = _
      rw [List.append_assoc]
      rfl
    rw [hinside] at hwrite
    exact h.write hreached (by simp [hup, Ne.symm hname]) hnames hwrite

/-- Copying a directory that is apart from the output directory to a place below that. -/
theorem Underway.copy_directory (h : Underway base cleaned current)
    (hapart : AreApart base (source.spelt cleaned.workingDirectory))
    (hcopy : current.copyDirectory source (output.join ⟨[], names⟩) = .ok after) :
    Underway base cleaned after := by
  have hreach := hreached.of_grows h.grows
  have htarget : (output.join ⟨[], names⟩).spelt current.workingDirectory = base ++ names := by
    rw [spelt_below _ output hup, hreach.spelt]
  rw [← h.grows.workingDirectory] at hapart
  obtain ⟨made, hmake, hcopied⟩ := copied_of_copy_directory h.regular
    (List.append_ne_nil_of_left_ne_nil hnames _) rfl htarget (hapart.not_prefix names) hcopy
  have hmade := h.make_directories hreached hup (by rfl) (List.prefix_refl _) hmake
  refine ⟨hcopied.regular, hmade.grows.trans hcopied.lasts.grows, hmade.below.trans fun place hplace ↦ ?_⟩
  have hinside : base <+: base ++ names := List.prefix_append ..
  refine hcopied.elsewhere place (fun others _ heq ↦ hplace ?_) fun entry _ heq ↦ hplace ?_
  · rw [heq, List.append_assoc]
    exact List.prefix_append ..
  · rw [heq]
    exact hinside.trans (prefix_landing made _ entry)

end Operations

/-- The names in a configuration do not lead out of the output directory, and what is copied into it stands
apart from it. -/
structure IsContained (config : Config) (workingDirectory : Location) : Prop where
  prefixes : ∀ entry ∈ config.locales, FilePath.IsInner entry.2.pathPrefix
  outputs : ∀ page ∈ config.pages, FilePath.IsInner page.output
  files : ∀ name ∈ config.staticFiles, FilePath.IsInner name ∧ AreApart (outputPlace config workingDirectory)
    ((config.sourceDirectory.joinText name).spelt workingDirectory)
  directories : ∀ name ∈ config.staticDirectories, FilePath.IsInner name ∧
    AreApart (outputPlace config workingDirectory)
      ((config.sourceDirectory.joinText name).spelt workingDirectory)

section Actions

variable (hclean : Cleans config before cleaned) {name : Text}
include hclean

/-- The cleaned files are where a build goes on from. -/
theorem Cleans.underway : Underway (outputPlace config before.workingDirectory) cleaned cleaned :=
  ⟨hclean.regular, .refl cleaned, .refl _ cleaned⟩

/-- Writing an inner file. -/
theorem Underway.write_text (h : Underway (outputPlace config before.workingDirectory) cleaned current)
    (hname : FilePath.IsInner name) {text : Text} {result : Unit}
    (hwrite : (writeText (config.outputDirectory.joinText name) text).Ends current result after) :
    Underway (outputPlace config before.workingDirectory) cleaned after := by
  have hwrite := ends_of_write_text hwrite
  rw [hname.join_text] at hwrite
  exact h.write_making hclean.reached hname.forward hclean.names hwrite

/-- Writing pages whose paths are inner. -/
theorem Underway.writes {pages : List BuiltPage}
    (h : Underway (outputPlace config before.workingDirectory) cleaned current)
    (hpages : ∀ built ∈ pages, ∃ names, upName ∉ names ∧
      built.path = config.outputDirectory.join ⟨[], names⟩)
    (hwrites : Writes current pages after) :
    Underway (outputPlace config before.workingDirectory) cleaned after := by
  induction hwrites with
  | none tree => exact h
  | more hwrite hothers ih =>
      obtain ⟨hfirst, hrest⟩ := List.forall_mem_cons.mp hpages
      obtain ⟨names, hup, hpath⟩ := hfirst
      rw [hpath] at hwrite
      exact ih (h.write_making hclean.reached hup hclean.names hwrite) hrest

/-- Copying a static file. -/
theorem Underway.copy_static_file
    (h : Underway (outputPlace config before.workingDirectory) cleaned current)
    (hname : FilePath.IsInner name)
    (hcopy : (copyStaticFile config name).Ends current ⟨⟩ after) :
    Underway (outputPlace config before.workingDirectory) cleaned after := by
  rcases ends_of_copy_static_file hcopy with ⟨-, rfl⟩ | ⟨-, made, hmake, hcopy⟩
  · exact h
  · rw [hname.join_text config.outputDirectory] at hmake hcopy
    have hmade := h.make_directories hclean.reached hname.forward (by rfl) (List.dropLast_prefix _) hmake
    exact hmade.copy_file hclean.reached hname.forward hclean.names hcopy

/-- Copying a static directory. -/
theorem Underway.copy_static_directory
    (h : Underway (outputPlace config before.workingDirectory) cleaned current)
    (hname : FilePath.IsInner name)
    (hapart : AreApart (outputPlace config before.workingDirectory)
      ((config.sourceDirectory.joinText name).spelt before.workingDirectory))
    (hcopy : (copyStaticDirectory config name).Ends current ⟨⟩ after) :
    Underway (outputPlace config before.workingDirectory) cleaned after := by
  rcases ends_of_copy_static_directory hcopy with ⟨-, rfl⟩ | ⟨-, hcopy⟩
  · exact h
  · rw [hname.join_text config.outputDirectory] at hcopy
    have hsource : AreApart (outputPlace config before.workingDirectory)
        ((config.sourceDirectory.joinText name).spelt cleaned.workingDirectory) := by
      rw [hclean.workingDirectory]
      exact hapart
    exact h.copy_directory hclean.reached hname.forward hclean.names hsource hcopy

/-- Naming the sitemap. -/
theorem Underway.name_sitemap (h : Underway (outputPlace config before.workingDirectory) cleaned current)
    {result : Unit} (hrobots : (nameSitemap config).Ends current result after) :
    Underway (outputPlace config before.workingDirectory) cleaned after := by
  have hname : FilePath.IsInner robotsName := by decide
  rcases name_sitemap_cases hrobots with ⟨-, rfl⟩ | ⟨-, text, -, ⟨-, rfl⟩ | ⟨-, hwrite⟩⟩
  · exact h
  · exact h
  · rw [hname.join_text] at hwrite
    exact h.write hclean.reached hname.forward hclean.names hwrite

end Actions

section Published

variable {codes : List Text} {requested : List Locale} {dictionaries : Entries Dictionary} {today : Text}
  {written filed copied mapped : FileTree} {report : BuildReport}

/-- The path of a page whose names are inner. -/
theorem output_path_inner {page : Page} {locale : Locale} (hfront : FilePath.IsInner locale.pathPrefix)
    (houtput : FilePath.IsInner page.output) :
    upName ∉ (FilePath.ofText locale.pathPrefix).parts ++ (FilePath.ofText page.output).parts ∧
      outputPath config page locale = config.outputDirectory.join
        ⟨[], (FilePath.ofText locale.pathPrefix).parts ++ (FilePath.ofText page.output).parts⟩ := by
  refine ⟨by simp [hfront.forward, houtput.forward], ?_⟩
  unfold outputPath
  rw [houtput.join_text, hfront.join_text]
  show FilePath.mk config.outputDirectory.root (config.outputDirectory.parts ++ _ ++ _) = _
  rw [List.append_assoc]
  rfl

/-- At every point a build has changed only what stands below the output directory. -/
theorem Publishes.underway (h : Publishes config requested dictionaries today before cleaned written filed
      copied mapped report after) (hclean : Cleans config before cleaned)
    (hlayout : IsContained config before.workingDirectory)
    (hrequested : ∀ locale ∈ requested, ∃ entry ∈ config.locales, entry.2 = locale) :
    Underway (outputPlace config before.workingDirectory) cleaned written ∧
      Underway (outputPlace config before.workingDirectory) cleaned filed ∧
      Underway (outputPlace config before.workingDirectory) cleaned copied ∧
      Underway (outputPlace config before.workingDirectory) cleaned mapped ∧
      Underway (outputPlace config before.workingDirectory) cleaned after := by
  have hpages : ∀ built ∈ report.pages, ∃ names, upName ∉ names ∧
      built.path = config.outputDirectory.join ⟨[], names⟩ := by
    intro built hbuilt
    rw [h.pages] at hbuilt
    obtain ⟨locale, hlocale, _, -, page, hpage, _, -, rfl⟩ := mem_built_pages.mp hbuilt
    obtain ⟨entry, hentry, rfl⟩ := hrequested locale hlocale
    exact ⟨_, output_path_inner (hlayout.prefixes entry hentry) (hlayout.outputs page hpage)⟩
  have hwritten := hclean.underway.writes hclean hpages h.writes
  have hfiled := for_m_keeps (fun name hname _ _ hcopy hstate ↦
    Underway.copy_static_file hclean hstate (hlayout.files name hname).1 hcopy) h.files hwritten
  have hcopied := for_m_keeps (fun name hname _ _ hcopy hstate ↦
    Underway.copy_static_directory hclean hstate (hlayout.directories name hname).1
      (hlayout.directories name hname).2 hcopy) h.directories hfiled
  have hmapped := hcopied.write_text hclean (by decide) h.sitemap
  exact ⟨hwritten, hfiled, hcopied, hmapped, hmapped.name_sitemap hclean h.robots⟩

/-- No file that a build copies into the output directory, nor the robots file or the sitemap, goes to a
place. -/
structure IsUnshadowed (config : Config) (tree : FileTree) (place : Location) : Prop where
  files : ∀ name ∈ config.staticFiles, ∀ content,
    tree.node? ((config.sourceDirectory.joinText name).spelt tree.workingDirectory) = some (.file content) →
    (config.outputDirectory.joinText name).spelt tree.workingDirectory ≠ place ∧
      ((config.outputDirectory.joinText name).join
        ⟨[], [(config.sourceDirectory.joinText name).name]⟩).spelt tree.workingDirectory ≠ place
  directories : ∀ name ∈ config.staticDirectories, ∀ names content,
    tree.node? ((config.sourceDirectory.joinText name).spelt tree.workingDirectory ++ names) =
      some (.file content) →
    (config.outputDirectory.joinText name).spelt tree.workingDirectory ++ names ≠ place ∧
      (config.outputDirectory.joinText name).spelt tree.workingDirectory ++ names ++
        [names.getLast?.getD []] ≠ place
  sitemap : (config.outputDirectory.joinText sitemapName).spelt tree.workingDirectory ≠ place
  robots : (config.outputDirectory.joinText robotsName).spelt tree.workingDirectory ≠ place

/-- What a build finds in a file apart from the output directory was there before. -/
theorem Underway.file_before (h : Underway (outputPlace config before.workingDirectory) cleaned current)
    (hclean : Cleans config before cleaned) {content : Content}
    (hapart : ¬ outputPlace config before.workingDirectory <+: place)
    (hplace : current.node? place = some (.file content)) :
    before.node? place = some (.file content) := by
  rw [h.below place hapart] at hplace
  exact hclean.files place content hplace

/-- A static file is copied to another place than that of a file. -/
theorem Underway.stays_of_copy_static_file {name : Text} {content : Content}
    (h : Underway (outputPlace config before.workingDirectory) cleaned current)
    (hclean : Cleans config before cleaned) (hlayout : IsContained config before.workingDirectory)
    (hunshadowed : IsUnshadowed config before place) (hname : name ∈ config.staticFiles)
    (hcopy : (copyStaticFile config name).Ends current ⟨⟩ after)
    (hplace : current.node? place = some (.file content)) : after.node? place = some (.file content) := by
  rcases ends_of_copy_static_file hcopy with ⟨-, rfl⟩ | ⟨hfile, made, hmake, hcopy⟩
  · exact hplace
  · have hwhere := h.grows.workingDirectory.trans hclean.workingDirectory
    have hmade := (leads_of_make_directories hmake).1.workingDirectory.trans hwhere
    obtain ⟨source, held, hlocate, hheld⟩ := exists_place_of_is_file hfile
    obtain rfl := locate_eq_spelt hlocate
    rw [hwhere] at hheld
    have hbefore := h.file_before hclean (hlayout.files name hname).2.notAbove hheld
    obtain ⟨htarget, hinside⟩ := hunshadowed.files name hname held hbefore
    rw [← hmade] at htarget hinside
    rw [node_of_copy_file hcopy htarget hinside]
    exact node_of_make_directories hmake hplace

/-- A static directory is copied to other places than that of a file. -/
theorem Underway.stays_of_copy_static_directory {name : Text} {content : Content}
    (h : Underway (outputPlace config before.workingDirectory) cleaned current)
    (hclean : Cleans config before cleaned) (hlayout : IsContained config before.workingDirectory)
    (hunshadowed : IsUnshadowed config before place) (hname : name ∈ config.staticDirectories)
    (hcopy : (copyStaticDirectory config name).Ends current ⟨⟩ after)
    (hplace : current.node? place = some (.file content)) : after.node? place = some (.file content) := by
  rcases ends_of_copy_static_directory hcopy with ⟨-, rfl⟩ | ⟨-, hcopy⟩
  · exact hplace
  · obtain ⟨hinner, hapart⟩ := hlayout.directories name hname
    have hwhere := h.grows.workingDirectory.trans hclean.workingDirectory
    have hsource : (config.sourceDirectory.joinText name).spelt current.workingDirectory =
        (config.sourceDirectory.joinText name).spelt before.workingDirectory := by rw [hwhere]
    have htarget : (config.outputDirectory.joinText name).spelt current.workingDirectory =
        (config.outputDirectory.joinText name).spelt before.workingDirectory := by rw [hwhere]
    have hparts : (config.outputDirectory.joinText name).parts ≠ [] := by
      rw [hinner.join_text]
      exact List.append_ne_nil_of_left_ne_nil hclean.names _
    obtain ⟨made, hmake, hcopied⟩ := copied_of_copy_directory h.regular hparts hsource htarget
      (fun names ↦ by rw [hinner.spelt]; exact hapart.not_prefix _ names) hcopy
    refine hcopied.file_stays (node_of_make_directories hmake hplace) fun names held hentry ↦ ?_
    have hheld := (h.regular.mem_below.mp hentry).2
    refine hunshadowed.directories name hname names held (h.file_before hclean ?_ hheld)
    have hnot := hapart.not_prefix [] names
    rwa [List.append_nil] at hnot

/-- A built page is in its file when the build ends, if everything that is written to its place is that
page. -/
theorem Publishes.page_stands (h : Publishes config requested dictionaries today before cleaned written filed
      copied mapped report after) (hclean : Cleans config before cleaned)
    (hlayout : IsContained config before.workingDirectory)
    (hrequested : ∀ locale ∈ requested, ∃ entry ∈ config.locales, entry.2 = locale)
    {built : BuiltPage} (hbuilt : built ∈ report.pages)
    (hsame : ∀ other ∈ report.pages, other.path.spelt before.workingDirectory =
      built.path.spelt before.workingDirectory → other.rendering.text = built.rendering.text)
    (hunshadowed : IsUnshadowed config before (built.path.spelt before.workingDirectory)) :
    after.content built.path = .ok (.text built.rendering.text) := by
  obtain ⟨hwritten, hfiled, hcopied, hmapped, -⟩ := h.underway hclean hlayout hrequested
  rw [← hclean.workingDirectory] at hsame
  obtain ⟨hlocate, hplace⟩ := h.writes.stands hbuilt hsame
  rw [hclean.workingDirectory] at hlocate hplace
  -- The page stays when the static files, then the static directories, and then the sitemap are written.
  let holds (tree : FileTree) : Prop :=
    Underway (outputPlace config before.workingDirectory) cleaned tree ∧
      tree.node? (built.path.spelt before.workingDirectory) = some (.file (.text built.rendering.text))
  have hafterFiles : holds filed := by
    refine for_m_keeps (fun name hname _ _ hcopy hstate ↦ ?_) h.files ⟨hwritten, hplace⟩
    exact ⟨hstate.1.copy_static_file hclean (hlayout.files name hname).1 hcopy,
      hstate.1.stays_of_copy_static_file hclean hlayout hunshadowed hname hcopy hstate.2⟩
  have hafterDirectories : holds copied := by
    refine for_m_keeps (fun name hname _ _ hcopy hstate ↦ ?_) h.directories hafterFiles
    obtain ⟨hinner, hapart⟩ := hlayout.directories name hname
    exact ⟨hstate.1.copy_static_directory hclean hinner hapart hcopy,
      hstate.1.stays_of_copy_static_directory hclean hlayout hunshadowed hname hcopy hstate.2⟩
  have hwhere := hcopied.grows.workingDirectory.trans hclean.workingDirectory
  have hsitemap := (spares_of_write_text h.sitemap (by rw [hwhere]; exact hunshadowed.sitemap)).file _
    hafterDirectories.2
  obtain ⟨-, hfile⟩ := ends_of_name_sitemap h.robots
  have hlast := hfile _ _ hsitemap
  rw [if_neg] at hlast
  · have hthere := locate_of_grows h.lasts.grows hlocate
    simp only [FileTree.content, hthere, hlast, bind, Except.bind]
  · intro hrobots
    refine hunshadowed.robots ?_
    rw [locate_eq_spelt hrobots, hmapped.grows.workingDirectory, hclean.workingDirectory]

end Published

end Site

end LocalizedSite
