import LocalizedSite.Proofs.Files.Agreement

/-!
# What copying leaves alone

Making directories, writing files and copying add to a tree (`Extends`): no directory disappears, and no
name comes to lead back. A file stays as it is when files are copied to other places
(`file_of_copy_directory`), and it stays a file in any case (`Lasts`). A path that does not lead back stays
inside the directory in which it begins (`IsInner`).
-/

namespace LocalizedSite

namespace FileTree

/-- No name of a tree leads back. -/
structure Plain (tree : FileTree) : Prop where
  workingDirectory : upName ∉ tree.workingDirectory
  nodes : ∀ entry ∈ tree.nodes, upName ∉ entry.1

variable {tree made after : FileTree} {path source target : FilePath} {content : Content}
  {place base : Location}

section Plain

/-- One name leads to a place without a name that leads back. -/
theorem plain_of_enter {location next : Location} {name : Text}
    (h : tree.enter location name = .ok next) (hlocation : upName ∉ location) : upName ∉ next := by
  rw [(enter_eq.mp h).2]
  split
  · exact fun hmem ↦ hlocation (List.dropLast_subset _ hmem)
  · next hname => simp [hlocation, Ne.symm hname]

/-- A path begins at a place without a name that leads back. -/
theorem Plain.start_of (h : tree.Plain) (path : FilePath) : upName ∉ tree.startOf path := by
  unfold startOf
  split
  · exact List.not_mem_nil
  · exact h.workingDirectory

/-- A path leads to a place without a name that leads back. -/
theorem Plain.locate (h : tree.Plain) (hlocate : tree.locate path = .ok place) : upName ∉ place :=
  foldlM_keeps (upName ∉ ·) (fun _ _ ↦ plain_of_enter) hlocate (h.start_of path)

/-- Something may be set at a place without a name that leads back. -/
theorem Plain.set_node (h : tree.Plain) (hplace : upName ∉ place) (node : FileNode) :
    (tree.setNode place node).Plain := by
  refine ⟨h.workingDirectory, fun entry hmem ↦ ?_⟩
  rcases List.mem_cons.mp hmem with rfl | hmem
  · exact hplace
  · exact h.nodes entry (List.mem_filter.mp hmem).1

/-- Removing brings no names. -/
theorem Plain.restrict (h : tree.Plain) (keep : Location → Bool) : (tree.restrict keep).Plain :=
  ⟨h.workingDirectory, fun entry hmem ↦ h.nodes entry (List.mem_filter.mp hmem).1⟩

/-- Making directories brings no names that lead back. -/
theorem Plain.making (h : tree.Plain) {names : List Text} {last : Bool} {location final : Location}
    (hlocation : upName ∉ location)
    (hmade : names.foldlM (enterMaking last) (tree, location) = .ok (made, final)) :
    made.Plain ∧ upName ∉ final := by
  let holds (state : FileTree × Location) : Prop := state.1.Plain ∧ upName ∉ state.2
  refine foldlM_keeps holds (fun name _ state next hstep hstate ↦ ?_) hmade ⟨h, hlocation⟩
  obtain ⟨henter, hcases⟩ := enter_making_eq.mp hstep
  have hnext := plain_of_enter henter hstate.2
  rcases hcases with ⟨-, hsame⟩ | ⟨-, hset⟩
  · exact ⟨hsame ▸ hstate.1, hnext⟩
  · exact ⟨hset ▸ hstate.1.set_node hnext .directory, hnext⟩

end Plain

/-- A tree has grown, and it has no name that leads back if it had none before. -/
structure Extends (before after : FileTree) : Prop where
  grows : before.Grows after
  plain : before.Plain → after.Plain

/-- Every tree extends itself. -/
theorem Extends.refl (tree : FileTree) : Extends tree tree :=
  ⟨.refl tree, id⟩

/-- Extending goes on. -/
theorem Extends.trans {first second third : FileTree} (h : Extends first second)
    (hnext : Extends second third) : Extends first third :=
  ⟨h.grows.trans hnext.grows, fun hplain ↦ hnext.plain (h.plain hplain)⟩

/-- Making directories extends a tree. -/
theorem extends_of_make_directories (h : tree.makeDirectories path = .ok made) : Extends tree made := by
  refine ⟨(leads_of_make_directories h).1, fun hplain ↦ ?_⟩
  obtain ⟨final, hmaking⟩ := making_of_make_directories h
  exact (hplain.making (hplain.start_of path) hmaking).1

/-- Writing a file extends a tree. -/
theorem extends_of_write (h : tree.write path content = .ok after) : Extends tree after := by
  obtain ⟨location, hlocate, hplace, rfl⟩ := write_eq.mp h
  exact ⟨grows_set_node hplace _, fun hplain ↦ hplain.set_node (hplain.locate hlocate) _⟩

/-- Writing a file with its directory extends a tree. -/
theorem extends_of_write_making (h : tree.writeMaking path content = .ok after) :
    Extends tree after := by
  obtain ⟨made, hmade, hwrite⟩ := bind_eq_ok.mp h
  exact (extends_of_make_directories hmade).trans (extends_of_write hwrite)

/-- Writing a file leaves what stands elsewhere. -/
theorem node_of_write (h : tree.write path content = .ok after)
    (helsewhere : path.spelt tree.workingDirectory ≠ place) :
    after.node? place = tree.node? place := by
  obtain ⟨location, hlocate, hplace, rfl⟩ := write_eq.mp h
  have hroot : location ≠ [] := ne_root rfl hplace
  have hne : place ≠ location := by
    rintro rfl
    exact helsewhere (locate_eq_spelt hlocate).symm
  rw [node_set_node tree hroot, if_neg hne]

/-- A copied file is written under its target or, in a directory, under its own name. -/
theorem copy_file_eq (h : tree.copyFile source target = .ok after) :
    ∃ content path, (path = target ∨ path = target.join ⟨[], [source.name]⟩) ∧
      tree.write path content = .ok after := by
  obtain ⟨content, -, h⟩ := bind_eq_ok.mp h
  refine ⟨content, _, ?_, h⟩
  split
  · exact .inr rfl
  · exact .inl rfl

/-- Copying a file extends a tree. -/
theorem extends_of_copy_file (h : tree.copyFile source target = .ok after) : Extends tree after := by
  obtain ⟨content, path, -, hwrite⟩ := copy_file_eq h
  exact extends_of_write hwrite

/-- Copying a file leaves what stands elsewhere. -/
theorem node_of_copy_file (h : tree.copyFile source target = .ok after)
    (htarget : target.spelt tree.workingDirectory ≠ place)
    (hinside : (target.join ⟨[], [source.name]⟩).spelt tree.workingDirectory ≠ place) :
    after.node? place = tree.node? place := by
  obtain ⟨content, path, rfl | rfl, hwrite⟩ := copy_file_eq h
  · exact node_of_write hwrite htarget
  · exact node_of_write hwrite hinside

section Directory

/-- Copy one file or directory to its place below a target. -/
def copyBelow (source target : FilePath) (tree : FileTree) (entry : Location × FileNode) :
    Except FileError FileTree :=
  let path := target.join ⟨[], entry.1⟩
  match entry.2 with
  | .directory => tree.makeDirectories path
  | .file _ => tree.copyFile (source.join ⟨[], entry.1⟩) path

/-- A directory is copied by making its target and copying what stands below it. -/
theorem copy_directory_eq (h : tree.copyDirectory source target = .ok after) :
    ∃ location made, tree.makeDirectories target = .ok made ∧
      (tree.below location).foldlM (copyBelow source target) made = .ok after := by
  obtain ⟨location, -, h⟩ := bind_eq_ok.mp h
  obtain ⟨made, hmade, h⟩ := bind_eq_ok.mp h
  exact ⟨location, made, hmade, h⟩

variable {entry : Location × FileNode}

/-- Copying below a target extends a tree. -/
theorem extends_of_copy_below (h : copyBelow source target tree entry = .ok after) :
    Extends tree after := by
  unfold copyBelow at h
  split at h
  · exact extends_of_make_directories h
  · exact extends_of_copy_file h

/-- Copying several things below a target extends a tree. -/
theorem extends_of_copies {entries : List (Location × FileNode)}
    (h : entries.foldlM (copyBelow source target) tree = .ok after) : Extends tree after :=
  foldlM_keeps (Extends tree) (fun _ _ _ _ hstep hextends ↦ hextends.trans (extends_of_copy_below hstep))
    h (.refl tree)

/-- Copying a directory extends a tree. -/
theorem extends_of_copy_directory (h : tree.copyDirectory source target = .ok after) :
    Extends tree after := by
  obtain ⟨location, made, hmade, hcopies⟩ := copy_directory_eq h
  exact (extends_of_make_directories hmade).trans (extends_of_copies hcopies)

/-- What stands below a location has a name of its own, which leads back only if the tree has such a
name. -/
theorem below_spec (hplain : tree.Plain) {location : Location} (h : entry ∈ tree.below location) :
    entry.1 ≠ [] ∧ upName ∉ entry.1 := by
  unfold below at h
  obtain ⟨⟨found, node⟩, hmem, hentry⟩ := List.mem_filterMap.mp (List.mem_mergeSort.mp h)
  simp only at hentry
  split at hentry
  · next hbelow =>
      obtain rfl := Option.some.inj hentry
      simp only [Bool.and_eq_true, List.isPrefixOf_iff_prefix, bne_iff_ne] at hbelow
      obtain ⟨⟨names, rfl⟩, hne⟩ := hbelow
      have hup := hplain.nodes _ hmem
      simp only [List.drop_left, List.mem_append, not_or] at hup ⊢
      exact ⟨fun hnil ↦ hne (by rw [hnil, List.append_nil]), hup.2⟩
  · exact absurd hentry (by simp)

/-- Names that do not lead back spell themselves. -/
theorem foldl_along {names : List Text} (hup : upName ∉ names) (base : Location) :
    names.foldl along base = base ++ names := by
  induction names generalizing base with
  | nil => exact (List.append_nil base).symm
  | cons name names ih =>
      simp only [List.mem_cons, not_or] at hup
      rw [List.foldl_cons, along, if_neg (Ne.symm hup.1), ih hup.2, List.append_assoc]
      rfl

/-- Names that do not lead back spell a place below that of the target. -/
theorem spelt_below (workingDirectory : Location) (target : FilePath) {names : List Text}
    (hup : upName ∉ names) : (target.join ⟨[], names⟩).spelt workingDirectory =
      target.spelt workingDirectory ++ names := by
  unfold FilePath.spelt
  change (target.parts ++ names).foldl _ (if target.isAbsolute then [] else workingDirectory) = _
  rw [List.foldl_append, foldl_along hup]

/-- Copying one thing below a target leaves what does not stand below it. -/
theorem file_of_copy_below (h : copyBelow source target tree entry = .ok after)
    (hentry : entry.1 ≠ [] ∧ upName ∉ entry.1)
    (helsewhere : ¬ target.spelt tree.workingDirectory <+: place)
    (hplace : tree.node? place = some (.file content)) :
    after.node? place = some (.file content) := by
  have hbelow {names : List Text} (hup : upName ∉ names) :
      (target.join ⟨[], names⟩).spelt tree.workingDirectory ≠ place := by
    rintro rfl
    exact helsewhere ⟨names, (spelt_below _ target hup).symm⟩
  unfold copyBelow at h
  split at h
  · exact node_of_make_directories h hplace
  · have hname : (source.join ⟨[], entry.1⟩).name ≠ upName := by
      show ((source.parts ++ entry.1).getLast?.getD []) ≠ upName
      rw [List.getLast?_append_of_ne_nil _ hentry.1, List.getLast?_eq_some_getLast hentry.1]
      exact fun heq ↦ hentry.2 (heq ▸ List.getLast_mem hentry.1)
    -- If the target is a directory, the file goes into it, which is still below.
    have hinside : (target.join ⟨[], entry.1⟩).join ⟨[], [(source.join ⟨[], entry.1⟩).name]⟩ =
        target.join ⟨[], entry.1 ++ [(source.join ⟨[], entry.1⟩).name]⟩ := by
      show FilePath.mk target.root (target.parts ++ entry.1 ++ [_]) = _
      rw [List.append_assoc]
      rfl
    rw [node_of_copy_file h (hbelow hentry.2)]
    · exact hplace
    · rw [hinside]
      exact hbelow (by simp [hentry.2, Ne.symm hname])

/-- Copying several things below a target leaves what does not stand below it. -/
theorem file_of_copies {entries : List (Location × FileNode)}
    (h : entries.foldlM (copyBelow source target) tree = .ok after)
    (hentries : ∀ entry ∈ entries, entry.1 ≠ [] ∧ upName ∉ entry.1)
    (helsewhere : ¬ target.spelt tree.workingDirectory <+: place)
    (hplace : tree.node? place = some (.file content)) :
    after.node? place = some (.file content) := by
  let holds (state : FileTree) : Prop :=
    state.workingDirectory = tree.workingDirectory ∧ state.node? place = some (.file content)
  have hkept : holds after := by
    refine foldlM_keeps holds (fun entry hentry state next hstep hstate ↦ ?_) h ⟨rfl, hplace⟩
    obtain ⟨hdirectory, hstands⟩ := hstate
    refine ⟨(extends_of_copy_below hstep).grows.workingDirectory.trans hdirectory, ?_⟩
    exact file_of_copy_below hstep (hentries entry hentry) (by rwa [hdirectory]) hstands
  exact hkept.2

/-- Copying a directory leaves a file that does not stand below the target. -/
theorem file_of_copy_directory (hplain : tree.Plain)
    (h : tree.copyDirectory source target = .ok after)
    (helsewhere : ¬ target.spelt tree.workingDirectory <+: place)
    (hplace : tree.node? place = some (.file content)) :
    after.node? place = some (.file content) := by
  obtain ⟨location, made, hmade, hcopies⟩ := copy_directory_eq h
  refine file_of_copies hcopies (fun entry hentry ↦ below_spec hplain hentry) ?_
    (node_of_make_directories hmade hplace)
  rwa [(extends_of_make_directories hmade).grows.workingDirectory]

end Directory

section Lasting

/-- A tree has grown, and every file is still a file. -/
structure Lasts (before after : FileTree) : Prop where
  grows : before.Grows after
  files : ∀ location content, before.node? location = some (.file content) →
    ∃ held, after.node? location = some (.file held)

/-- Nothing is lost if nothing happens. -/
theorem Lasts.refl (tree : FileTree) : Lasts tree tree :=
  ⟨.refl tree, fun _ content hplace ↦ ⟨content, hplace⟩⟩

/-- Nothing is lost by one thing after another. -/
theorem Lasts.trans {first second third : FileTree} (h : Lasts first second)
    (hnext : Lasts second third) : Lasts first third where
  grows := h.grows.trans hnext.grows
  files location content hplace := by
    obtain ⟨held, hheld⟩ := h.files location content hplace
    exact hnext.files location held hheld

/-- A file is still found by its path. -/
theorem Lasts.is_file {before after : FileTree} (h : Lasts before after)
    (hfile : before.isFile path = true) : after.isFile path = true := by
  obtain ⟨place, content, hlocate, hplace⟩ := exists_place_of_is_file hfile
  obtain ⟨held, hheld⟩ := h.files place content hplace
  simp only [isFile, at?, locate_of_grows h.grows hlocate, hheld]

/-- Making directories loses nothing. -/
theorem lasts_of_make_directories (h : tree.makeDirectories path = .ok made) : Lasts tree made :=
  ⟨(leads_of_make_directories h).1, fun _ content hplace ↦ ⟨content, node_of_make_directories h hplace⟩⟩

/-- Writing a file loses at most what the file held. -/
theorem lasts_of_write (h : tree.write path content = .ok after) : Lasts tree after := by
  refine ⟨(extends_of_write h).grows, fun other held hplace ↦ ?_⟩
  obtain ⟨location, -, hlocation, rfl⟩ := write_eq.mp h
  rw [node_set_node tree (ne_root rfl hlocation)]
  split
  · exact ⟨content, rfl⟩
  · exact ⟨held, hplace⟩

/-- Writing a file with its directory loses at most what the file held. -/
theorem lasts_of_write_making (h : tree.writeMaking path content = .ok after) : Lasts tree after := by
  obtain ⟨made, hmade, hwrite⟩ := bind_eq_ok.mp h
  exact (lasts_of_make_directories hmade).trans (lasts_of_write hwrite)

/-- Copying a file loses at most what its target held. -/
theorem lasts_of_copy_file (h : tree.copyFile source target = .ok after) : Lasts tree after := by
  obtain ⟨content, path, -, hwrite⟩ := copy_file_eq h
  exact lasts_of_write hwrite

/-- Copying one thing below a target loses at most what its target held. -/
theorem lasts_of_copy_below {entry : Location × FileNode}
    (h : copyBelow source target tree entry = .ok after) : Lasts tree after := by
  unfold copyBelow at h
  split at h
  · exact lasts_of_make_directories h
  · exact lasts_of_copy_file h

/-- Copying a directory loses at most what the targets held. -/
theorem lasts_of_copy_directory (h : tree.copyDirectory source target = .ok after) :
    Lasts tree after := by
  obtain ⟨location, made, hmade, hcopies⟩ := copy_directory_eq h
  exact foldlM_keeps (Lasts tree) (fun _ _ _ _ hstep hlasts ↦ hlasts.trans (lasts_of_copy_below hstep))
    hcopies (lasts_of_make_directories hmade)

end Lasting

end FileTree

namespace FilePath

/-- A relative path that does not lead back, so it stays inside the directory in which it begins. -/
structure IsInner (text : Text) : Prop where
  relative : (ofText text).root = []
  forward : FileTree.upName ∉ (ofText text).parts

instance (text : Text) : Decidable (IsInner text) :=
  decidable_of_iff ((ofText text).root = [] ∧ FileTree.upName ∉ (ofText text).parts)
    ⟨fun h ↦ ⟨h.1, h.2⟩, fun h ↦ ⟨h.relative, h.forward⟩⟩

/-- An inner path below another path. -/
theorem IsInner.join_text {text : Text} (h : IsInner text) (path : FilePath) :
    path.joinText text = path.join ⟨[], (ofText text).parts⟩ := by
  unfold joinText
  rw [← h.relative]

/-- The place of an inner path below another path. -/
theorem IsInner.spelt {text : Text} (h : IsInner text) (path : FilePath) (workingDirectory : Location) :
    (path.joinText text).spelt workingDirectory =
      path.spelt workingDirectory ++ (ofText text).parts := by
  rw [h.join_text, FileTree.spelt_below workingDirectory path h.forward]

end FilePath

end LocalizedSite
