import LocalizedSite.Proofs.Files.Copying

/-!
# The places that a path passes

Making a directory makes directories only at places that its path passes (`node_of_make_directories_cases`).
So if a path leads to a directory, what is made or written behind it changes nothing but what stands below
that directory (`ChangesBelow`).
-/

namespace LocalizedSite

namespace FileTree

/-- The places that names pass from a location, the last of which is the place that they spell. -/
def passed (location : Location) : List Text → List Location
  | [] => [location]
  | name :: names => location :: passed (along location name) names

end FileTree

/-- The places that the names of a path pass from a working directory. -/
def FilePath.stations (workingDirectory : Location) (path : FilePath) : List Location :=
  FileTree.passed (if path.isAbsolute then [] else workingDirectory) path.parts

namespace FileTree

variable {tree made after : FileTree} {path output : FilePath} {names front back : List Text}
  {location final base place : Location} {content : Content}

section Passed

/-- Names behind others pass on from where those lead. -/
theorem mem_passed_append : place ∈ passed location (front ++ back) ↔
    place ∈ passed location front ∨ place ∈ passed (front.foldl along location) back := by
  induction front generalizing location with
  | nil =>
      rw [List.nil_append, List.foldl_nil, passed, List.mem_singleton]
      refine ⟨.inr, fun h ↦ h.elim (fun heq ↦ ?_) id⟩
      rw [heq]
      cases back with
      | nil => exact List.mem_singleton_self _
      | cons name names => exact List.mem_cons_self ..
  | cons name names ih =>
      rw [List.cons_append, passed, passed, List.mem_cons, List.mem_cons, ih, List.foldl_cons, or_assoc]

/-- Names that do not lead back pass the places that their beginnings spell. -/
theorem exists_of_mem_passed (hup : upName ∉ names) (h : place ∈ passed location names) :
    ∃ front, front <+: names ∧ place = location ++ front := by
  induction names generalizing location with
  | nil => exact ⟨[], List.prefix_refl _, by rw [List.mem_singleton.mp h, List.append_nil]⟩
  | cons name names ih =>
      simp only [List.mem_cons, not_or] at hup
      rcases List.mem_cons.mp h with rfl | hmem
      · exact ⟨[], List.nil_prefix, (List.append_nil _).symm⟩
      · rw [along, if_neg (Ne.symm hup.1)] at hmem
        obtain ⟨front, hfront, rfl⟩ := ih hup.2 hmem
        exact ⟨name :: front, List.cons_prefix_cons.mpr ⟨rfl, hfront⟩, by simp⟩

/-- All places are directories that are passed on the way to a directory. -/
theorem Leads.passed (h : tree.Leads location names final) (hfinal : tree.node? final = some .directory)
    (hplace : place ∈ FileTree.passed location names) : tree.node? place = some .directory := by
  induction h with
  | here location =>
      rw [List.mem_singleton.mp hplace]
      exact hfinal
  | @step location next final name names henter hnext _ ih =>
      obtain ⟨hdirectory, hnamed⟩ := enter_eq.mp henter
      rcases List.mem_cons.mp hplace with rfl | hmem
      · exact hdirectory
      · rw [show next = along location name from hnamed] at ih
        exact ih hfinal hmem

/-- Making directories makes them only at places that are passed and where nothing stands. -/
theorem node_of_making_cases {last : Bool}
    (h : names.foldlM (enterMaking last) (tree, location) = .ok (made, final)) (place : Location) :
    made.node? place = tree.node? place ∨
      tree.node? place = none ∧ made.node? place = some .directory ∧ place ∈ passed location names := by
  induction names generalizing tree location with
  | nil =>
      obtain ⟨rfl, -⟩ := Prod.mk.inj (Except.ok.inj h)
      exact .inl rfl
  | cons name names ih =>
      rw [List.foldlM_cons] at h
      obtain ⟨⟨grown, next⟩, hstep, hrest⟩ := bind_eq_ok.mp h
      obtain ⟨henter, hcases⟩ := enter_making_eq.mp hstep
      obtain rfl : next = along location name := (enter_eq.mp henter).2
      have hothers := ih hrest
      rcases hcases with ⟨-, rfl⟩ | ⟨hnone, rfl⟩
      · exact hothers.imp_right fun ⟨hfree, hmade, hmem⟩ ↦ ⟨hfree, hmade, List.mem_cons_of_mem _ hmem⟩
      · rw [node_set_node tree (ne_root hnone (by simp))] at hothers
        by_cases hsame : place = along location name
        · -- the place is the one that this name leads to, where a directory is made and stays
          have hstays : made.node? place = some .directory := by
            refine (leads_of_making hrest).1.directories _ ?_
            rw [node_set_node tree (ne_root hnone (by simp)), if_pos hsame]
          refine .inr ⟨hsame ▸ hnone, hstays, List.mem_cons_of_mem _ ?_⟩
          rw [hsame]
          cases names with
          | nil => exact List.mem_singleton_self _
          | cons second others => exact List.mem_cons_self ..
        · rw [if_neg hsame] at hothers
          exact hothers.imp_right fun ⟨hfree, hmade, hmem⟩ ↦
            ⟨hfree, hmade, List.mem_cons_of_mem _ hmem⟩

end Passed

section Reading

variable {first second : FileTree}

/-- The names along the way lead on alike where the same stands at all places that they pass. -/
theorem follow_of_passed
    (hsame : ∀ place ∈ passed location names, second.node? place = first.node? place) :
    names.foldlM second.enter location = names.foldlM first.enter location := by
  induction names generalizing location with
  | nil => rfl
  | cons name names ih =>
      obtain ⟨hfirst, hothers⟩ := List.forall_mem_cons.mp hsame
      have henter : second.enter location name = first.enter location name := by
        unfold enter
        rw [hfirst]
      rw [List.foldlM_cons, List.foldlM_cons, henter]
      cases hnext : first.enter location name with
      | error error => rfl
      | ok next =>
          obtain rfl : next = along location name := (enter_eq.mp hnext).2
          exact ih hothers

/-- The last place that is passed is the place that the names spell. -/
theorem along_mem_passed (location : Location) (names : List Text) :
    names.foldl along location ∈ passed location names := by
  induction names generalizing location with
  | nil => exact List.mem_singleton_self _
  | cons name names ih => exact List.mem_cons_of_mem _ (ih _)

/-- A text is read alike where the same stands at all places that its path passes. -/
theorem read_text_of_stations (hwhere : second.workingDirectory = first.workingDirectory)
    (hsame : ∀ place ∈ path.stations first.workingDirectory, second.node? place = first.node? place) :
    second.readText path = first.readText path := by
  have hlocate : second.locate path = first.locate path := by
    unfold locate startOf
    rw [hwhere]
    exact follow_of_passed hsame
  have hcontent : second.content path = first.content path := by
    unfold FileTree.content
    rw [hlocate]
    cases hplace : first.locate path with
    | error error => rfl
    | ok place =>
        have hmem : place ∈ path.stations first.workingDirectory := by
          rw [locate_eq_spelt hplace]
          exact along_mem_passed _ _
        simp only [bind, Except.bind]
        rw [hsame place hmem]
  unfold readText
  rw [hcontent]

end Reading

/-- Making a directory makes directories only at places that its path passes and where nothing stands. -/
theorem node_of_make_directories_cases (h : tree.makeDirectories path = .ok made) (place : Location) :
    made.node? place = tree.node? place ∨ tree.node? place = none ∧
      made.node? place = some .directory ∧ place ∈ path.stations tree.workingDirectory := by
  obtain ⟨final, hmaking⟩ := making_of_make_directories h
  exact node_of_making_cases hmaking place

/-- A path leads through directories to a directory. -/
structure Reaches (tree : FileTree) (path : FilePath) (place : Location) : Prop where
  leads : tree.Leads (tree.startOf path) path.parts place
  directory : tree.node? place = some .directory

/-- A path still leads to the directory when the tree has grown. -/
theorem Reaches.of_grows (h : tree.Reaches path place) (hgrows : tree.Grows after) :
    after.Reaches path place := by
  refine ⟨?_, hgrows.directories _ h.directory⟩
  rw [show after.startOf path = tree.startOf path by unfold startOf; rw [hgrows.workingDirectory]]
  exact h.leads.of_grows hgrows

/-- A path leads to the directory that it spells. -/
theorem Reaches.spelt (h : tree.Reaches path place) : path.spelt tree.workingDirectory = place :=
  (locate_eq_spelt h.leads.locate).symm

/-- A directory that was made is reached, if its path has names. -/
theorem reaches_of_make_directories (hparts : path.parts ≠ []) (h : tree.makeDirectories path = .ok made) :
    made.Reaches path (path.spelt made.workingDirectory) := by
  obtain ⟨-, final, hleads⟩ := leads_of_make_directories h
  obtain rfl := locate_eq_spelt hleads.locate
  refine ⟨hleads, ?_⟩
  generalize path.spelt made.workingDirectory = final at hleads
  generalize path.parts = names at hleads hparts
  generalize made.startOf path = start at hleads
  induction hleads with
  | here _ => exact absurd rfl hparts
  | @step _ _ _ _ names _ hnext hrest ih =>
      cases names with
      | nil =>
          cases hrest
          exact hnext
      | cons name names => exact ih (List.cons_ne_nil _ _)

/-- Nothing has changed that does not stand below a place. -/
def ChangesBelow (base : Location) (before after : FileTree) : Prop :=
  ∀ place, ¬ base <+: place → after.node? place = before.node? place

theorem ChangesBelow.refl (base : Location) (tree : FileTree) : ChangesBelow base tree tree :=
  fun _ _ ↦ rfl

theorem ChangesBelow.trans {first second third : FileTree} (h : ChangesBelow base first second)
    (hnext : ChangesBelow base second third) : ChangesBelow base first third :=
  fun place hplace ↦ (hnext place hplace).trans (h place hplace)

section Inside

variable (h : tree.Reaches output base) (hup : upName ∉ names)
include h hup

/-- Behind a path that leads to a directory, directories are made only at the places that the names behind it
spell, and where nothing stands. -/
theorem node_below_cases (hroot : path.root = output.root) (hparts : path.parts <+: output.parts ++ names)
    (hmake : tree.makeDirectories path = .ok made) (place : Location) :
    made.node? place = tree.node? place ∨ tree.node? place = none ∧
      made.node? place = some .directory ∧ ∃ front, front <+: names ∧ place = base ++ front := by
  refine (node_of_make_directories_cases hmake place).imp_right fun ⟨hnone, hmade, hmem⟩ ↦
    ⟨hnone, hmade, ?_⟩
  obtain ⟨others, hwhole⟩ := hparts
  have hstart : (if path.isAbsolute then [] else tree.workingDirectory) = tree.startOf output := by
    unfold startOf FilePath.isAbsolute
    rw [hroot]
  have hpassed : place ∈ passed (tree.startOf output) (output.parts ++ names) := by
    rw [← hwhole, mem_passed_append, ← hstart]
    exact .inl hmem
  rcases mem_passed_append.mp hpassed with hfront | hbehind
  · rw [h.leads.passed h.directory hfront] at hnone
    exact absurd hnone (by simp)
  · rw [← follow_eq_along h.leads.locate] at hbehind
    exact exists_of_mem_passed hup hbehind

/-- Behind a path that leads to a directory, directories are made below it only. -/
theorem changes_of_make_directories (hroot : path.root = output.root)
    (hparts : path.parts <+: output.parts ++ names) (hmake : tree.makeDirectories path = .ok made) :
    ChangesBelow base tree made := fun place hplace ↦
  (node_below_cases h hup hroot hparts hmake place).resolve_right
    fun ⟨_, _, front, _, heq⟩ ↦ hplace ⟨front, heq.symm⟩

/-- Behind a path that leads to a directory, a file is written below it only. -/
theorem changes_of_write (hwrite : tree.write (output.join ⟨[], names⟩) content = .ok after) :
    ChangesBelow base tree after := by
  refine fun place hplace ↦ node_of_write hwrite fun hspelt ↦ hplace ?_
  rw [← hspelt, spelt_below _ output hup, h.spelt]
  exact List.prefix_append ..

end Inside

end FileTree

end LocalizedSite
