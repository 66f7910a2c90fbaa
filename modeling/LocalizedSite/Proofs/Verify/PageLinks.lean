import LocalizedSite.Proofs.Files.Agreement
import LocalizedSite.Proofs.Files.Path
import LocalizedSite.Proofs.Text.Search
import LocalizedSite.Verify.Site
import Mathlib.Data.Bool.AllAny
import Mathlib.Data.List.TakeWhile

/-!
# Addresses of pages as links

The address of a page leaves out of its output what a server adds by itself, and a link leads to the files
that a server would look for. The two fit together name by name: behind a way both work on the last name
alone (`url_path_eq`, `link_targets_append`). An address leads to the file of its page exactly if the name
of the file is not a bare ending, and ends like a directory index only if it is one (`page_address_leads`).
-/

namespace LocalizedSite

open FilePath

section Names

/-- A text without its ending. -/
theorem Page.drop_last_append (front ending : Text) :
    Page.dropLast ending.length (front ++ ending) = front := by
  unfold Page.dropLast
  rw [List.length_append, Nat.add_sub_cancel, List.take_left]

/-- A text that ends in an ending. -/
theorem Text.ends_with_iff {text ending : Text} :
    Text.endsWith text ending = true ↔ ∃ front, text = front ++ ending := by
  unfold Text.endsWith
  rw [List.isSuffixOf_iff_suffix]
  exact ⟨fun ⟨front, h⟩ ↦ ⟨front, h.symm⟩, fun ⟨front, h⟩ ↦ ⟨front, h.symm⟩⟩

/-- What the address of a page leaves out: the name of a directory index, or the ending of a page. -/
theorem Page.url_path_cases (page : Page) :
    (∃ front, page.output = front ++ indexName ∧ page.urlPath = front) ∨
      (Text.endsWith page.output indexName = false ∧
        ∃ front, page.output = front ++ pageEnding ∧ page.urlPath = front) ∨
      (Text.endsWith page.output indexName = false ∧ Text.endsWith page.output pageEnding = false ∧
        page.urlPath = page.output) := by
  unfold urlPath isDirectoryIndex
  cases hindex : Text.endsWith page.output indexName with
  | true =>
      obtain ⟨front, hfront⟩ := Text.ends_with_iff.mp hindex
      exact .inl ⟨front, hfront, by rw [if_pos rfl, hfront, drop_last_append]⟩
  | false =>
      rw [if_neg Bool.false_ne_true]
      cases hending : Text.endsWith page.output pageEnding with
      | true =>
          obtain ⟨front, hfront⟩ := Text.ends_with_iff.mp hending
          exact .inr (.inl ⟨rfl, front, hfront, by rw [if_pos rfl, hfront, drop_last_append]⟩)
      | false => exact .inr (.inr ⟨rfl, rfl, if_neg Bool.false_ne_true⟩)

/-- The address of a page begins its output. -/
theorem Page.url_path_isPrefix (page : Page) : page.urlPath <+: page.output := by
  obtain ⟨front, houtput, hurl⟩ | ⟨-, front, houtput, hurl⟩ | ⟨-, -, hurl⟩ := page.url_path_cases
  · exact ⟨indexName, by rw [hurl, houtput]⟩
  · exact ⟨pageEnding, by rw [hurl, houtput]⟩
  · exact hurl ▸ List.prefix_refl _

/-- The address of a page is the way to its file, and the address of the file's name. -/
theorem Page.url_path_eq {page : Page} {front name : Text} (houtput : page.output = front ++ name)
    (hfront : IsWay front) : page.urlPath = front ++ { page with output := name }.urlPath := by
  have hends (ending : Text) (h : '/' ∉ ending) :
      Text.endsWith page.output ending = Text.endsWith name ending := by
    rw [houtput, hfront.ends_with_append h]
  obtain ⟨stem, hname, hurl⟩ | ⟨hindex, stem, hname, hurl⟩ | ⟨hindex, hending, hurl⟩ :=
    Page.url_path_cases { page with output := name }
  all_goals rw [hurl]; simp only at *
  · rw [urlPath, isDirectoryIndex, houtput, hname, ← List.append_assoc,
      if_pos (Text.ends_with_iff.mpr ⟨_, rfl⟩), drop_last_append]
  · rw [urlPath, isDirectoryIndex, hends indexName (by decide), hindex, if_neg Bool.false_ne_true, houtput,
      hname, ← List.append_assoc, if_pos (Text.ends_with_iff.mpr ⟨_, rfl⟩), drop_last_append]
  · rw [urlPath, isDirectoryIndex, hends indexName (by decide), hindex, if_neg Bool.false_ne_true,
      hends pageEnding (by decide), hending, if_neg Bool.false_ne_true, houtput]

end Names

namespace Verify

section Targets

/-- The files that a link may lead to if it leads to no directory. -/
theorem link_targets_of_ne {path : Text} (hne : path ≠ []) (hlast : path.getLast? ≠ some '/') :
    linkTargets path = [path, path ++ Page.pageEnding, path ++ '/' :: Page.indexName] ++
      if Text.endsWith path Page.pageEnding then
        [Page.dropLast Page.pageEnding.length path ++ '/' :: Page.indexName]
      else [] := by
  have hslash : Text.endsWith path ['/'] = false := by
    refine Bool.eq_false_iff.mpr fun h ↦ ?_
    obtain ⟨front, rfl⟩ := Text.ends_with_iff.mp h
    exact hlast List.getLast?_concat
  have hempty : path.isEmpty = false := by simpa using hne
  unfold linkTargets
  rw [hempty, hslash]
  rfl

/-- A name does not end in a slash. -/
theorem last_ne_of_not_mem {name : Text} (h : '/' ∉ name) : name.getLast? ≠ some '/' :=
  fun hlast ↦ h (List.mem_of_getLast? hlast)

/-- Behind a way, a link leads to the files that the rest leads to. -/
theorem link_targets_append {front name : Text} (hfront : IsWay front) (hname : '/' ∉ name) :
    linkTargets (front ++ name) = (linkTargets name).map (front ++ ·) := by
  by_cases hne : name = []
  · subst hne
    rcases hfront with rfl | ⟨above, rfl⟩
    · rfl
    · have hslash : Text.endsWith (above ++ ['/']) ['/'] = true := Text.ends_with_iff.mpr ⟨above, rfl⟩
      unfold linkTargets
      simp [hslash]
  · have hlast : (front ++ name).getLast? ≠ some '/' := by
      rw [List.getLast?_append_of_ne_nil front hne]
      exact last_ne_of_not_mem hname
    rw [link_targets_of_ne hne (last_ne_of_not_mem hname), link_targets_of_ne (by simp [hne]) hlast,
      hfront.ends_with_append (by decide)]
    cases hending : Text.endsWith name Page.pageEnding with
    | false => simp
    | true =>
        obtain ⟨stem, rfl⟩ := Text.ends_with_iff.mp hending
        rw [← List.append_assoc front, Page.drop_last_append, Page.drop_last_append]
        simp

/-- A file name that the address of its page leads back to. -/
def IsServedName (name : Text) : Prop :=
  name ≠ Page.pageEnding ∧ (Text.endsWith name Page.indexName = true → name = Page.indexName)

/-- A directory index is served. -/
theorem is_served_index : IsServedName Page.indexName :=
  ⟨by decide, fun _ ↦ rfl⟩

/-- A path to a directory index has it as its last name. -/
theorem parts_index (front : Text) : (ofText (front ++ '/' :: Page.indexName)).parts =
    (ofText front).parts ++ [Page.indexName] :=
  parts_append_slash front Page.indexName

/-- A name that does not lead back spells itself. -/
theorem along_of_ne {location : Location} {name : Text} (h : name ≠ FileTree.upName) :
    FileTree.along location name = location ++ [name] :=
  if_neg h

/-- What names that end in a directory index spell ends in it. -/
theorem spells_index (front : List Text) (location : Location) :
    (front ++ [Page.indexName]).foldl FileTree.along location =
      front.foldl FileTree.along location ++ [Page.indexName] := by
  rw [List.foldl_append]
  have hname : Page.indexName ≠ FileTree.upName := by decide
  exact along_of_ne hname

/-- What one name spells is no other name in the same directory. -/
theorem spells_ne_of_name {name other : Text} (hname : '/' ∉ name) (hother : name ≠ other)
    (location : Location) :
    (ofText name).parts.foldl FileTree.along location ≠ location ++ [other] := by
  have hlonger (shorter : Location) (h : shorter.length ≤ location.length) :
      shorter ≠ location ++ [other] := by
    rintro rfl
    rw [List.length_append, List.length_singleton] at h
    exact Nat.not_succ_le_self _ h
  rw [parts_of_not_mem hname]
  split
  · exact hlonger location le_rfl
  · show FileTree.along location name ≠ location ++ [other]
    unfold FileTree.along
    split
    · exact hlonger _ (by simp)
    · exact fun h ↦ hother (List.singleton_inj.mp (List.append_cancel_left h))

/-- A name that is not served is none of the names of the files that its address may lead to. -/
theorem spells_ne_of_target {page : Page} (hname : '/' ∉ page.output)
    (hserved : ¬ IsServedName page.output) {target : Text} (htarget : target ∈ linkTargets page.urlPath)
    (location : Location) :
    (ofText target).parts.foldl FileTree.along location ≠ location ++ [page.output] := by
  have hindex (front : Text) : (ofText (front ++ '/' :: Page.indexName)).parts.foldl FileTree.along
      location ≠ location ++ [page.output] := by
    rw [parts_index, spells_index]
    intro h
    obtain ⟨-, hlast⟩ := List.append_inj' h rfl
    exact hserved (List.singleton_inj.mp hlast ▸ is_served_index)
  by_cases hempty : page.urlPath = []
  · rw [hempty] at htarget
    obtain rfl := List.mem_singleton.mp htarget
    exact spells_ne_of_name (by decide) (fun h ↦ hserved (by rw [← h]; exact is_served_index)) location
  · have hslash : '/' ∉ page.urlPath := fun hmem ↦ hname (page.url_path_isPrefix.subset hmem)
    -- a name that is not served and whose address is not empty is longer than a directory index
    have houtput : page.output = page.urlPath ++ Page.indexName := by
      obtain ⟨stem, houtput, hurl⟩ | ⟨hnot, stem, houtput, hurl⟩ | ⟨hnot, hending, hurl⟩ :=
        page.url_path_cases
      · rw [houtput, hurl]
      · refine absurd ⟨fun hbare ↦ hempty ?_, fun h ↦ absurd (hnot.symm.trans h) Bool.false_ne_true⟩ hserved
        rw [hurl]
        exact List.append_left_eq_self.mp (houtput.symm.trans hbare)
      · refine absurd ⟨fun hbare ↦ ?_, fun h ↦ absurd (hnot.symm.trans h) Bool.false_ne_true⟩ hserved
        rw [hbare] at hending
        exact absurd hending (by decide)
    rw [link_targets_of_ne hempty (last_ne_of_not_mem hslash)] at htarget
    simp only [List.mem_append, List.mem_cons, List.not_mem_nil, or_false, List.mem_ite_nil_right]
      at htarget
    obtain (rfl | rfl | rfl) | ⟨-, rfl⟩ := htarget
    · refine spells_ne_of_name hslash (fun h ↦ ?_) location
      exact absurd (List.append_right_eq_self.mp (houtput.symm.trans h.symm)) (by decide)
    · refine spells_ne_of_name ?_ (fun h ↦ ?_) location
      · exact fun hmem ↦ (List.mem_append.mp hmem).elim hslash (by decide)
      · exact absurd (List.append_cancel_left (h.trans houtput)) (by decide)
    · exact hindex page.urlPath
    · exact hindex _

/-- What has no slash does not begin with one. -/
theorem head_ne_of_not_mem {text : Text} (h : '/' ∉ text) : text.head? ≠ some '/' :=
  fun hhead ↦ h (List.mem_of_head? hhead)

/-- A name that is served is among the files that its address may lead to. -/
theorem target_of_served {page : Page} (hne : page.output ≠ []) (hname : '/' ∉ page.output)
    (hserved : IsServedName page.output) : page.output ∈ linkTargets page.urlPath := by
  obtain ⟨stem, houtput, hurl⟩ | ⟨-, stem, houtput, hurl⟩ | ⟨-, -, hurl⟩ := page.url_path_cases
  · have hindex := hserved.2 (Text.ends_with_iff.mpr ⟨stem, houtput⟩)
    rw [hindex] at houtput
    rw [hurl, List.append_left_eq_self.mp houtput.symm, hindex]
    exact List.mem_singleton_self _
  · have hstem : stem ≠ [] := by
      rintro rfl
      exact hserved.1 houtput
    have hslash : '/' ∉ stem := fun hmem ↦ hname (houtput ▸ List.mem_append_left _ hmem)
    rw [hurl, link_targets_of_ne hstem (last_ne_of_not_mem hslash), houtput]
    simp
  · rw [hurl, link_targets_of_ne hne (last_ne_of_not_mem hname)]
    simp

/-- The only absolute file that a link to a name may lead to is a directory index. -/
theorem absolute_target {name target : Text} (hname : '/' ∉ name) (htarget : target ∈ linkTargets name)
    (habsolute : target.head? = some '/') : target = '/' :: Page.indexName := by
  have hfront {front rest : Text} (hfront : '/' ∉ front) (h : (front ++ rest).head? = some '/') :
      front = [] := by
    cases front with
    | nil => rfl
    | cons first front =>
        exact absurd (@List.mem_of_head? _ (first :: front) _ h) hfront
  by_cases hne : name = []
  · subst hne
    obtain rfl := List.mem_singleton.mp htarget
    exact absurd habsolute (by decide)
  · rw [link_targets_of_ne hne (last_ne_of_not_mem hname)] at htarget
    simp only [List.mem_append, List.mem_cons, List.not_mem_nil, or_false, List.mem_ite_nil_right]
      at htarget
    obtain (rfl | rfl | rfl) | ⟨hending, rfl⟩ := htarget
    · exact absurd habsolute (head_ne_of_not_mem hname)
    · exact absurd (hfront hname habsolute) hne
    · exact absurd (hfront hname habsolute) hne
    · obtain ⟨stem, rfl⟩ := Text.ends_with_iff.mp hending
      rw [Page.drop_last_append] at habsolute ⊢
      rw [hfront (fun hmem ↦ hname (List.mem_append_left _ hmem)) habsolute]
      rfl

end Targets

section Addresses

/-- A character that stays in the path of a link. -/
def IsPathCharacter (character : Char) : Prop :=
  character ∉ "?#\t\n\r".toList

instance : DecidablePred IsPathCharacter :=
  fun character ↦ inferInstanceAs (Decidable (character ∉ "?#\t\n\r".toList))

/-- A page and a locale whose paths can be followed in a link: relative, with a file at the end of the one
and a way as the other, and without a character that ends the path of a link or does not count in one. -/
structure IsAddressable (page : Page) (locale : Locale) : Prop where
  way : IsWay locale.pathPrefix
  fileName : lastName page.output ≠ []
  relativePrefix : locale.pathPrefix.head? ≠ some '/'
  relativeOutput : page.output.head? ≠ some '/'
  prefixCharacters : ∀ character ∈ locale.pathPrefix, IsPathCharacter character
  outputCharacters : ∀ character ∈ page.output, IsPathCharacter character

/-- A host that is well formed. -/
structure IsHost (host : Text) : Prop where
  ends : ∀ character ∈ host, "/?#".toList.contains character = false
  counts : ∀ character ∈ host, isIgnoredInLink character = false
  brackets : hasLoneBracket host = false
  delimiters : host.any (disguisedDelimiters.elem ·) = false

variable {page : Page} {locale : Locale}

/-- What is relative in two pieces is relative. -/
theorem head_append_ne {front rest : Text} {character : Char} (hfront : front.head? ≠ some character)
    (hrest : rest.head? ≠ some character) : (front ++ rest).head? ≠ some character := by
  cases front with
  | nil => exact hrest
  | cons first front => exact hfront

/-- The path of an address, without the slash before it, is relative. -/
theorem IsAddressable.relative (h : IsAddressable page locale) :
    (locale.pathPrefix ++ page.urlPath).head? ≠ some '/' := by
  refine head_append_ne h.relativePrefix fun hhead ↦ h.relativeOutput ?_
  obtain ⟨rest, houtput⟩ := page.url_path_isPrefix
  rw [← houtput, List.head?_append, hhead]
  rfl

/-- Every character of an address stays. -/
theorem IsAddressable.characters (h : IsAddressable page locale) :
    ∀ character ∈ Render.Registry.switcherPath page locale, IsPathCharacter character := by
  intro character hmem
  rcases List.mem_cons.mp hmem with rfl | hmem
  · unfold IsPathCharacter
    decide
  · rcases List.mem_append.mp hmem with hprefix | hurl
    · exact h.prefixCharacters _ hprefix
    · exact h.outputCharacters _ (page.url_path_isPrefix.subset hurl)

/-- Every character of a path counts. -/
theorem IsPathCharacter.counts {character : Char} (h : IsPathCharacter character) :
    isIgnoredInLink character = false := by
  unfold IsPathCharacter at h
  unfold isIgnoredInLink
  grind

/-- No character of a path ends it. -/
theorem IsPathCharacter.stays {character : Char} (h : IsPathCharacter character) :
    (character != '#' && character != '?') = true := by
  unfold IsPathCharacter at h
  grind

/-- A text all of whose characters stay is the path of itself. -/
theorem take_path {path : Text} (h : ∀ character ∈ path, IsPathCharacter character) :
    (path.takeWhile fun character ↦ character != '#' && character != '?') = path :=
  List.takeWhile_eq_self_iff.mpr fun character hmem ↦ (h character hmem).stays

/-- The path of an address is the address itself. -/
theorem link_path_address (h : IsAddressable page locale) :
    linkPath (Render.Registry.switcherPath page locale) =
      .ok (Render.Registry.switcherPath page locale) := by
  have hfilter : (Render.Registry.switcherPath page locale).filter
      (fun character ↦ !isIgnoredInLink character) = Render.Registry.switcherPath page locale :=
    List.filter_eq_self.mpr fun character hmem ↦ by rw [(h.characters character hmem).counts]; rfl
  have hhost : withoutHost (Render.Registry.switcherPath page locale) =
      .ok (Render.Registry.switcherPath page locale) := by
    unfold withoutHost
    have hafter : Text.after? "//".toList (Render.Registry.switcherPath page locale) = none := by
      refine Text.after_eq_none.mpr fun ⟨rest, hrest⟩ ↦ h.relative ?_
      rw [← show List.tail ("//".toList ++ rest) = locale.pathPrefix ++ page.urlPath from
        congrArg List.tail hrest]
      rfl
    rw [hafter]
  unfold linkPath
  rw [hfilter, hhost]
  exact congrArg Except.ok (take_path h.characters)

/-- The path of an address behind a host is the address. -/
theorem link_path_behind_host (h : IsAddressable page locale) {host : Text} (hhost : IsHost host) :
    linkPath ("//".toList ++ host ++ Render.Registry.switcherPath page locale) =
      .ok (Render.Registry.switcherPath page locale) := by
  have hfilter (text : Text) (htext : ∀ character ∈ text, isIgnoredInLink character = false) :
      text.filter (fun character ↦ !isIgnoredInLink character) = text :=
    List.filter_eq_self.mpr fun character hmem ↦ by rw [htext character hmem]; rfl
  have hspan : (host ++ Render.Registry.switcherPath page locale).span
      (fun character ↦ !("/?#".toList.contains character)) =
        (host, Render.Registry.switcherPath page locale) :=
    Text.span_append _ (fun character hmem ↦ by rw [hhost.ends character hmem]; rfl)
      (fun character hhead ↦ by obtain rfl := Option.some.inj hhead; decide)
  unfold linkPath withoutHost
  rw [List.filter_append, List.filter_append, hfilter host hhost.counts,
    hfilter _ fun character hmem ↦ (h.characters character hmem).counts, List.append_assoc,
    show "//".toList.filter (fun character ↦ !isIgnoredInLink character) = "//".toList from by decide,
    Text.after_append]
  simp only [hspan, hhost.brackets, hhost.delimiters, Bool.false_eq_true, if_false]
  exact congrArg Except.ok (take_path h.characters)

/-- An address without the slash before it. -/
theorem trim_address (h : IsAddressable page locale) :
    Text.trimStartWhere (· == '/') (Render.Registry.switcherPath page locale) =
      locale.pathPrefix ++ page.urlPath := by
  have hrelative := h.relative
  unfold Text.trimStartWhere Render.Registry.switcherPath
  rw [List.cons_append, List.dropWhile_cons_of_pos (by rfl)]
  cases hpath : locale.pathPrefix ++ page.urlPath with
  | nil => rfl
  | cons first rest =>
      rw [hpath] at hrelative
      exact List.dropWhile_cons_of_neg fun hslash ↦
        hrelative (congrArg some (eq_of_beq hslash))

/-- The file of a page, as one path below the output directory. -/
theorem output_path_eq (config : Config) (h : IsAddressable page locale) :
    Site.outputPath config page locale =
      config.outputDirectory.joinText (locale.pathPrefix ++ page.output) := by
  unfold Site.outputPath
  rw [join_text_of_ne _ h.relativePrefix, join_text_of_ne _ h.relativeOutput,
    join_text_of_ne _ (head_append_ne h.relativePrefix h.relativeOutput), parts_append h.way,
    List.append_assoc]

/-- What a relative path behind a way spells below a directory. -/
theorem spelt_join_text {workingDirectory : Location} (directory : FilePath) {front rest : Text}
    (hfront : IsWay front) (hrelative : (front ++ rest).head? ≠ some '/') :
    (directory.joinText (front ++ rest)).spelt workingDirectory = (ofText rest).parts.foldl
      FileTree.along ((⟨directory.root, directory.parts ++ (ofText front).parts⟩ : FilePath).spelt
        workingDirectory) := by
  rw [join_text_of_ne _ hrelative, parts_append hfront, ← List.append_assoc]
  unfold spelt
  rw [List.foldl_append]
  rfl

/-- A name that leads nowhere is served. -/
theorem is_served_of_idle {name : Text} (h : isIdle name = true) : IsServedName name := by
  rcases Bool.or_eq_true_iff.mp h with hempty | hpoint
  · obtain rfl := List.isEmpty_iff.mp hempty
    exact ⟨by decide, fun hindex ↦ absurd hindex (by decide)⟩
  · obtain rfl := eq_of_beq hpoint
    exact ⟨by decide, fun hindex ↦ absurd hindex (by decide)⟩

/-- A name that is not served spells itself. -/
theorem spells_of_not_served {name : Text} (hname : '/' ∉ name) (hserved : ¬ IsServedName name)
    (location : Location) :
    (ofText name).parts.foldl FileTree.along location = location ++ [name] := by
  rw [parts_of_not_mem hname, Bool.eq_false_iff.mpr fun hidle ↦ hserved (is_served_of_idle hidle)]
  refine along_of_ne fun hup ↦ hserved ?_
  rw [hup]
  exact ⟨by decide, fun hindex ↦ absurd hindex (by decide)⟩

/-- No file that the address of a page may lead to is the file of the page, if the file's name is not
served. -/
theorem spelt_ne_of_target (config : Config) (h : IsAddressable page locale)
    (hserved : ¬ IsServedName (lastName page.output)) {target : Text}
    (htarget : target ∈ linkTargets (locale.pathPrefix ++ page.urlPath)) (workingDirectory : Location) :
    (config.outputDirectory.joinText target).spelt workingDirectory ≠
      (Site.outputPath config page locale).spelt workingDirectory := by
  obtain ⟨front, houtput, hfront⟩ := way_append_last_name page.output
  have hname := not_mem_last_name page.output
  have hway := h.way.append hfront
  have hstem : '/' ∉ { page with output := lastName page.output }.urlPath :=
    fun hmem ↦ hname ((Page.url_path_isPrefix _).subset hmem)
  have hfrontHead : front.head? ≠ some '/' := fun hhead ↦ h.relativeOutput (by
    rw [houtput, List.head?_append, hhead]
    rfl)
  rw [Page.url_path_eq houtput hfront, ← List.append_assoc, link_targets_append hway hstem] at htarget
  obtain ⟨rest, hrest, rfl⟩ := List.mem_map.mp htarget
  have hrelative : (locale.pathPrefix ++ front ++ lastName page.output).head? ≠ some '/' := by
    rw [List.append_assoc, ← houtput]
    exact head_append_ne h.relativePrefix h.relativeOutput
  have hpath : (Site.outputPath config page locale).spelt workingDirectory =
      (⟨config.outputDirectory.root, config.outputDirectory.parts ++
        (ofText (locale.pathPrefix ++ front)).parts⟩ : FilePath).spelt workingDirectory ++
          [lastName page.output] := by
    have hwhole : locale.pathPrefix ++ page.output =
        locale.pathPrefix ++ front ++ lastName page.output := by
      rw [List.append_assoc, ← houtput]
    rw [output_path_eq config h, hwhole, spelt_join_text _ hway hrelative,
      spells_of_not_served hname hserved]
  rw [hpath]
  by_cases hhead : rest.head? = some '/'
  · -- the candidate may be absolute, but its last name is that of a directory index
    obtain rfl := absolute_target hstem hrest hhead
    have hindex : ∃ names, (config.outputDirectory.joinText
        (locale.pathPrefix ++ front ++ '/' :: Page.indexName)).parts = names ++ [Page.indexName] := by
      unfold joinText join
      split
      · exact ⟨_, parts_index _⟩
      · exact ⟨_, by rw [parts_index, ← List.append_assoc]⟩
    obtain ⟨names, hnames⟩ := hindex
    unfold spelt
    rw [hnames, spells_index]
    intro heq
    obtain ⟨-, hlast⟩ := List.append_inj' heq rfl
    exact hserved (List.singleton_inj.mp hlast ▸ is_served_index)
  · rw [spelt_join_text _ hway (head_append_ne (head_append_ne h.relativePrefix hfrontHead) hhead)]
    exact @spells_ne_of_target { page with output := lastName page.output } hname hserved _ hrest _

/-- A tree with its directories and the file at one place. -/
def withOnly (tree : FileTree) (place : Location) : FileTree :=
  tree.restrict fun location ↦
    match tree.node? location with
    | some .directory => true
    | _ => location == place

/-- A file can stand alone among the same directories. -/
theorem agree_with_only (tree : FileTree) (place : Location) :
    FileTree.AgreeOutside (· ≠ place) tree (withOnly tree place) where
  workingDirectory := rfl
  directories location := by
    by_cases hroot : location = []
    · subst hroot
      exact iff_of_true rfl rfl
    · unfold withOnly
      rw [FileTree.node_restrict tree _ hroot]
      cases tree.node? location with
      | none => simp
      | some node => cases node <;> simp
  outside location hplace := by
    obtain rfl := not_not.mp hplace
    by_cases hroot : location = []
    · subst hroot
      rfl
    · unfold withOnly
      rw [FileTree.node_restrict tree _ hroot]
      cases tree.node? location with
      | none => simp
      | some node => cases node <;> simp

/-- A file that stands alone is the only one. -/
theorem eq_of_with_only {tree : FileTree} {place location : Location} {content : Content}
    (h : (withOnly tree place).node? location = some (.file content)) : location = place := by
  have hroot : location ≠ [] := FileTree.ne_root h (by simp)
  unfold withOnly at h
  rw [FileTree.node_restrict tree _ hroot] at h
  cases hnode : tree.node? location with
  | none => simp [hnode] at h
  | some node =>
      cases node with
      | directory => simp [hnode] at h
      | file found =>
          simp only [hnode] at h
          split at h
          · next hkeep => exact eq_of_beq hkeep
          · exact absurd h (by simp)

/-- A file is still there when it stands alone, and a path to a file then spells the place of that file. -/
theorem exists_only_file {tree : FileTree} {path : FilePath} (h : tree.isFile path = true) :
    ∃ only : FileTree, only.isFile path = true ∧ ∀ other : FilePath, only.isFile other = true →
      other.spelt only.workingDirectory = path.spelt only.workingDirectory := by
  obtain ⟨place, content, hlocate, hplace⟩ := FileTree.exists_place_of_is_file h
  have hagree := agree_with_only tree place
  have halone := hagree.locate.mpr hlocate
  refine ⟨withOnly tree place, ?_, fun other hother ↦ ?_⟩
  · unfold FileTree.isFile FileTree.at?
    rw [halone]
    simp only [hagree.outside place (not_not.mpr rfl), hplace]
  · obtain ⟨location, found, hlocation, hfound⟩ := FileTree.exists_place_of_is_file hother
    rw [← FileTree.locate_eq_spelt hlocation, ← FileTree.locate_eq_spelt halone]
    exact eq_of_with_only hfound

/-- An address leads to the file of its page, wherever that file is, exactly if the file's name is served. -/
theorem leads_to_file_iff (config : Config) (h : IsAddressable page locale) {tree : FileTree}
    (htree : tree.isFile (Site.outputPath config page locale) = true) :
    (∀ other : FileTree, other.isFile (Site.outputPath config page locale) = true →
      leadsToFile other config.outputDirectory (Render.Registry.switcherPath page locale) = true) ↔
        IsServedName (lastName page.output) := by
  have hleads (tree : FileTree) :
      leadsToFile tree config.outputDirectory (Render.Registry.switcherPath page locale) = true ↔
        ∃ target ∈ linkTargets (locale.pathPrefix ++ page.urlPath),
          tree.isFile (config.outputDirectory.joinText target) = true := by
    unfold leadsToFile
    rw [trim_address h, List.any_eq_true]
  constructor
  · intro hall
    by_contra hserved
    obtain ⟨only, honly, halone⟩ := exists_only_file htree
    obtain ⟨target, htarget, hfile⟩ := (hleads only).mp (hall only honly)
    exact spelt_ne_of_target config h hserved htarget _ (halone _ hfile)
  · intro hserved other hother
    refine (hleads other).mpr ⟨locale.pathPrefix ++ page.output, ?_, ?_⟩
    · obtain ⟨front, houtput, hfront⟩ := way_append_last_name page.output
      have hname := not_mem_last_name page.output
      have hmem := @target_of_served { page with output := lastName page.output } h.fileName hname hserved
      have hstem : '/' ∉ { page with output := lastName page.output }.urlPath :=
        fun hmem ↦ hname ((Page.url_path_isPrefix _).subset hmem)
      rw [Page.url_path_eq houtput hfront, ← List.append_assoc,
        link_targets_append (h.way.append hfront) hstem]
      refine List.mem_map.mpr ⟨_, hmem, ?_⟩
      rw [List.append_assoc, ← houtput]
    · rw [← output_path_eq config h]
      exact hother

/-- The addresses that the site publishes for a page in a locale are the address of the site and the path that
the language switcher links to, and this path is read back as it is, also behind a host. The check of links
accepts it in every tree that has the file of the page exactly if the file's name is served. -/
theorem page_address_leads (config : Config) (h : IsAddressable page locale) :
    let address := Render.Registry.switcherPath page locale
    linkPath address = .ok address ∧
      (∀ host, IsHost host → linkPath ("//".toList ++ host ++ address) = .ok address) ∧
      (config.registry.value page locale .canonicalUrl = config.registry.baseUrl ++ address ∧
        config.registry.value page locale .pageUrl = config.registry.baseUrl ++ address ∧
        (locale ∈ config.registry.locales →
          ⟨locale.hreflang, config.registry.baseUrl ++ address⟩ ∈ config.registry.alternates page) ∧
        ∀ hiddenPages today, (Render.sitemapEntry config.registry hiddenPages today page locale).location =
          config.registry.baseUrl ++ address) ∧
      ∀ tree : FileTree, tree.isFile (Site.outputPath config page locale) = true →
        ((∀ other : FileTree, other.isFile (Site.outputPath config page locale) = true →
          leadsToFile other config.outputDirectory address = true) ↔
            IsServedName (lastName page.output)) := by
  have hurl : config.registry.pageUrl page locale =
      config.registry.baseUrl ++ Render.Registry.switcherPath page locale :=
    List.append_assoc ..
  refine ⟨link_path_address h, fun host hhost ↦ link_path_behind_host h hhost,
    ⟨hurl, hurl, fun hlocale ↦ ?_, fun _ _ ↦ hurl⟩, fun tree htree ↦ leads_to_file_iff config h htree⟩
  exact List.mem_append_left _ (List.mem_map.mpr ⟨locale, hlocale, by rw [hurl]⟩)

/-- The address of a German directory index leads to it. The address of a page whose file only ends like a
directory index leaves that ending out too, and does not lead to the file. -/
theorem page_address_leads_reviews :
    let german : Locale := ⟨"de".toList, "de/".toList, "de_DE".toList, "de".toList, "de".toList,
      "Deutsch".toList, [], none, []⟩
    let reviews : Page := ⟨"reviews".toList, "reviews.html".toList, "reviews/index.html".toList, none⟩
    let contents : Page := ⟨"contents".toList, "contents.html".toList, "myindex.html".toList, none⟩
    let config : Config :=
      { baseUrl := "https://tea".toList, brandName := [], source := german,
        locales := [("de".toList, german)], pages := [reviews, contents],
        vocabulary := ⟨[], [], [], [], [], [], [], []⟩, sourceDirectory := FilePath.ofText ".".toList,
        templatesDirectory := FilePath.ofText "templates".toList,
        localesDirectory := FilePath.ofText "locales".toList,
        outputDirectory := FilePath.ofText "dist".toList, staticFiles := [], staticDirectories := [],
        hiddenPages := [], exemptPages := [], translation := .standard }
    let below (names : List String) : Location := "work".toList :: names.map String.toList
    let tree : FileTree := ⟨below [], [(below [], .directory), (below ["dist"], .directory),
      (below ["dist", "de"], .directory), (below ["dist", "de", "reviews"], .directory),
      (below ["dist", "de", "reviews", "index.html"], .file (.text [])),
      (below ["dist", "de", "myindex.html"], .file (.text []))]⟩
    leadsToFile tree config.outputDirectory "/de/reviews/".toList = true ∧
      Render.Registry.switcherPath contents german = "/de/my".toList ∧
      tree.isFile (Site.outputPath config contents german) = true ∧
      leadsToFile tree config.outputDirectory "/de/my".toList = false := by
  intro german reviews contents config below tree
  have haddressable : IsAddressable reviews german :=
    ⟨.inr ⟨"de".toList, rfl⟩, by decide, by decide, by decide, List.all_iff_forall_prop.mp (by decide),
      List.all_iff_forall_prop.mp (by decide)⟩
  obtain ⟨-, -, -, hleads⟩ := page_address_leads config haddressable
  exact ⟨(hleads tree (by decide)).mpr ⟨by decide, fun _ ↦ by decide⟩ tree (by decide), by decide,
    by decide, by decide⟩

end Addresses

end Verify

end LocalizedSite
