import LocalizedSite.Proofs.Files.Copying

/-!
# Regular trees of files

A tree is regular if its names do not lead back, everything in it stands in a directory, and it lists each
place once (`IsRegular`). What the operations on files make of a regular tree is regular.
-/

namespace LocalizedSite

namespace FileTree

/-- A tree whose list of files and directories says for each place what stands there, in a directory. -/
structure IsRegular (tree : FileTree) : Prop where
  plain : tree.Plain
  closed : tree.IsClosed
  listed : ∀ entry ∈ tree.nodes, tree.node? entry.1 = some entry.2

variable {tree made after : FileTree} {path source target : FilePath} {location next : Location}
  {name : Text} {node : FileNode} {content : Content}

section Places

/-- What stands somewhere is listed, or it is the root. -/
theorem listed_of_node (hroot : location ≠ []) (h : tree.node? location = some node) :
    (location, node) ∈ tree.nodes := by
  have hempty : location.isEmpty = false := List.isEmpty_eq_false_iff.mpr hroot
  unfold node? at h
  rw [hempty, if_neg (by decide)] at h
  obtain ⟨front, back, hsplit, -⟩ := List.lookup_eq_some_iff.mp h
  rw [hsplit]
  exact List.mem_append_right _ (List.mem_cons_self ..)

/-- No name on the way to what stands somewhere leads back. -/
theorem Plain.of_node (hplain : tree.Plain) (h : tree.node? location = some node) :
    upName ∉ location := by
  by_cases hroot : location = []
  · rw [hroot]
    exact List.not_mem_nil
  · exact hplain.nodes _ (listed_of_node hroot h)

/-- In a closed tree a name that leads back leads from a directory to a directory. -/
theorem IsClosed.drop_last (hclosed : tree.IsClosed) (h : tree.node? location = some .directory) :
    tree.node? location.dropLast = some .directory := by
  rcases List.eq_nil_or_concat location with rfl | ⟨above, last, rfl⟩
  · rfl
  · rw [List.concat_eq_append] at h ⊢
    rw [List.dropLast_concat]
    exact hclosed above last (by rw [h]; simp)

/-- In a closed tree a name that leads to no directory is the name of a place in a directory. -/
theorem IsClosed.enter (hclosed : tree.IsClosed) (h : tree.enter location name = .ok next)
    (hnext : tree.node? next ≠ some .directory) :
    tree.node? location = some .directory ∧ name ≠ upName ∧ next = location ++ [name] := by
  obtain ⟨hdirectory, heq⟩ := enter_eq.mp h
  by_cases hup : name = upName
  · rw [if_pos hup] at heq
    exact absurd (heq ▸ hclosed.drop_last hdirectory) hnext
  · rw [if_neg hup] at heq
    exact ⟨hdirectory, hup, heq⟩

/-- In a closed tree a path with names that leads to no directory leads to a place in a directory. -/
theorem IsClosed.locate_file (hclosed : tree.IsClosed) (hparts : path.parts ≠ [])
    (hlocate : tree.locate path = .ok next) (hnext : tree.node? next ≠ some .directory) :
    ∃ above, tree.node? above = some .directory ∧ path.name ≠ upName ∧ next = above ++ [path.name] := by
  have hlast : path.parts.dropLast ++ [path.name] = path.parts := by
    unfold FilePath.name
    rw [List.getLast?_eq_some_getLast hparts]
    exact List.dropLast_append_getLast hparts
  unfold FileTree.locate at hlocate
  rw [← hlast, List.foldlM_append] at hlocate
  obtain ⟨above, -, hlocate⟩ := bind_eq_ok.mp hlocate
  rw [List.foldlM_cons] at hlocate
  obtain ⟨final, henter, hfinal⟩ := bind_eq_ok.mp hlocate
  obtain rfl := Except.ok.inj hfinal
  exact ⟨above, hclosed.enter henter hnext⟩

end Places

section Operations

/-- A tree is regular if each of its nodes is what stands at its place, in a directory. -/
theorem regular_of_nodes (hwhere : upName ∉ tree.workingDirectory)
    (h : ∀ entry ∈ tree.nodes, upName ∉ entry.1 ∧ tree.node? entry.1.dropLast = some .directory ∧
      tree.node? entry.1 = some entry.2) : tree.IsRegular where
  plain := ⟨hwhere, fun entry hentry ↦ (h entry hentry).1⟩
  closed := is_closed_of_nodes fun entry hentry ↦ (h entry hentry).2.1
  listed entry hentry := (h entry hentry).2.2

/-- The tree that has nothing but an empty working directory is regular. -/
theorem regular_empty : empty.IsRegular :=
  regular_of_nodes (by decide) (List.forall_mem_singleton.mpr ⟨by decide, rfl, rfl⟩)

/-- Something is set in a directory, where there is no directory. -/
theorem IsRegular.set_node (h : tree.IsRegular) (hdirectory : tree.node? location = some .directory)
    (hname : name ≠ upName) (hfree : tree.node? (location ++ [name]) ≠ some .directory)
    (node : FileNode) : (tree.setNode (location ++ [name]) node).IsRegular := by
  have hroot : location ++ [name] ≠ [] := by simp
  have hgrows := grows_set_node hfree node
  have hup : upName ∉ location ++ [name] := by
    simp [h.plain.of_node hdirectory, Ne.symm hname]
  refine ⟨h.plain.set_node hup node, fun above last hplace ↦ ?_, fun entry hentry ↦ ?_⟩
  · rw [node_set_node tree hroot] at hplace
    split at hplace
    · next hsame =>
        obtain ⟨rfl, -⟩ := List.append_inj' hsame rfl
        exact hgrows.directories _ hdirectory
    · exact hgrows.directories _ (h.closed above last hplace)
  · rw [node_set_node tree hroot]
    rcases List.mem_cons.mp hentry with rfl | hkept
    · rw [if_pos rfl]
    · obtain ⟨hmem, hother⟩ := List.mem_filter.mp hkept
      rw [if_neg (bne_iff_ne.mp hother)]
      exact h.listed entry hmem

/-- Entering a name, and making a directory there, keeps a tree regular. -/
theorem IsRegular.enter_making (h : tree.IsRegular) {last : Bool}
    (hstep : enterMaking last (tree, location) name = .ok (made, next)) : made.IsRegular := by
  obtain ⟨henter, ⟨-, rfl⟩ | ⟨hnone, rfl⟩⟩ := enter_making_eq.mp hstep
  · exact h
  · have hfree : tree.node? next ≠ some .directory := by
      rw [hnone]
      simp
    obtain ⟨hdirectory, hname, rfl⟩ := h.closed.enter henter hfree
    exact h.set_node hdirectory hname hfree .directory

/-- Making directories keeps a tree regular. -/
theorem IsRegular.make_directories (h : tree.IsRegular) (hmake : tree.makeDirectories path = .ok made) :
    made.IsRegular := by
  obtain ⟨final, hmaking⟩ := making_of_make_directories hmake
  let holds (state : FileTree × Location) : Prop := state.1.IsRegular
  exact foldlM_keeps holds (fun _ _ _ _ hstep hstate ↦ IsRegular.enter_making hstate hstep) hmaking h

/-- Writing a file keeps a tree regular. -/
theorem IsRegular.write (h : tree.IsRegular) (hparts : path.parts ≠ [])
    (hwrite : tree.write path content = .ok after) : after.IsRegular := by
  obtain ⟨place, hlocate, hplace, rfl⟩ := write_eq.mp hwrite
  obtain ⟨above, hdirectory, hname, rfl⟩ := h.closed.locate_file hparts hlocate hplace
  exact h.set_node hdirectory hname hplace _

/-- Writing a file with its directory keeps a tree regular. -/
theorem IsRegular.write_making (h : tree.IsRegular) (hparts : path.parts ≠ [])
    (hwrite : tree.writeMaking path content = .ok after) : after.IsRegular := by
  obtain ⟨made, hmade, hwrite⟩ := bind_eq_ok.mp hwrite
  exact (h.make_directories hmade).write hparts hwrite

/-- Copying a file keeps a tree regular. -/
theorem IsRegular.copy_file (h : tree.IsRegular) (hparts : target.parts ≠ [])
    (hcopy : tree.copyFile source target = .ok after) : after.IsRegular := by
  obtain ⟨content, path, rfl | rfl, hwrite⟩ := copy_file_eq hcopy
  · exact h.write hparts hwrite
  · exact h.write (List.append_ne_nil_of_right_ne_nil _ (List.cons_ne_nil _ _)) hwrite

/-- Copying one thing below a target keeps a tree regular. -/
theorem IsRegular.copy_below (h : tree.IsRegular) {entry : Location × FileNode} (hentry : entry.1 ≠ [])
    (hcopy : copyBelow source target tree entry = .ok after) : after.IsRegular := by
  unfold copyBelow at hcopy
  split at hcopy
  · exact h.make_directories hcopy
  · exact h.copy_file (List.append_ne_nil_of_right_ne_nil _ hentry) hcopy

/-- Removing what stands below some places keeps a tree regular. -/
theorem IsRegular.restrict (h : tree.IsRegular) {keep : Location → Bool}
    (hkeep : ∀ location name, keep (location ++ [name]) = true → keep location = true) :
    (tree.restrict keep).IsRegular := by
  refine ⟨h.plain.restrict keep, fun location name hplace ↦ ?_, fun entry hentry ↦ ?_⟩
  · rw [node_restrict tree keep (by simp)] at hplace
    split at hplace
    · next hkept =>
        have hdirectory := h.closed location name hplace
        by_cases hroot : location = []
        · rw [hroot]
          rfl
        · rw [node_restrict tree keep hroot, if_pos (hkeep location name hkept)]
          exact hdirectory
    · exact absurd rfl hplace
  · obtain ⟨hmem, hkept⟩ := List.mem_filter.mp hentry
    have hlisted := h.listed entry hmem
    by_cases hroot : entry.1 = []
    · rw [hroot] at hlisted ⊢
      exact hlisted
    · rw [node_restrict tree keep hroot, if_pos hkept]
      exact hlisted

/-- What stands below a location of a regular tree. -/
theorem IsRegular.mem_below (h : tree.IsRegular) {base names : Location} :
    (names, node) ∈ tree.below base ↔ names ≠ [] ∧ tree.node? (base ++ names) = some node := by
  unfold below
  rw [List.mem_mergeSort, List.mem_filterMap]
  constructor
  · rintro ⟨⟨place, found⟩, hmem, hentry⟩
    simp only at hentry
    split at hentry
    · next hbelow =>
        obtain ⟨rfl, rfl⟩ := Prod.mk.inj (Option.some.inj hentry)
        simp only [Bool.and_eq_true, List.isPrefixOf_iff_prefix, bne_iff_ne] at hbelow
        obtain ⟨⟨rest, rfl⟩, hne⟩ := hbelow
        rw [List.drop_left]
        exact ⟨fun hnil ↦ hne (by rw [hnil, List.append_nil]), h.listed _ hmem⟩
    · exact absurd hentry (by simp)
  · rintro ⟨hnames, hplace⟩
    have hroot : base ++ names ≠ [] := List.append_ne_nil_of_right_ne_nil _ hnames
    refine ⟨(base ++ names, node), listed_of_node hroot hplace, ?_⟩
    have hbelow : (base.isPrefixOf (base ++ names) && (base ++ names) != base) = true := by
      rw [Bool.and_eq_true, List.isPrefixOf_iff_prefix, bne_iff_ne]
      exact ⟨List.prefix_append .., fun heq ↦ hnames (List.append_right_eq_self.mp heq)⟩
    simp only [hbelow, if_true, List.drop_left]

/-- Copying a directory keeps a tree regular. -/
theorem IsRegular.copy_directory (h : tree.IsRegular)
    (hcopy : tree.copyDirectory source target = .ok after) : after.IsRegular := by
  obtain ⟨location, made, hmade, hcopies⟩ := copy_directory_eq hcopy
  exact foldlM_keeps IsRegular
    (fun _ hentry _ _ hstep hstate ↦ hstate.copy_below (h.mem_below.mp hentry).1 hstep)
    hcopies (h.make_directories hmade)

end Operations

end FileTree

end LocalizedSite
