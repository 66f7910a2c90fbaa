import LocalizedSite.Proofs.Files.Closed

/-!
# Two trees that differ in some files

A path leads to the place that its names spell, if it leads anywhere (`locate_eq_spelt`), so which places
two paths lead to can be told without a tree. Two trees agree outside some places if they have the same
directories, and the same files at all other places (`AgreeOutside`). Paths lead to the same places in both, a
file outside is read alike, and making and emptying directories in both of them keeps the agreement.

Trees in which the same stands at every place are alike (`Alike`), in whatever order they list it. All is read
alike in them, and what is done in both leaves them alike.
-/

namespace LocalizedSite

namespace FileTree

/-- The place that one name spells. -/
def along (location : Location) (name : Text) : Location :=
  if name = upName then location.dropLast else location ++ [name]

end FileTree

/-- The place that the names of a path spell from a working directory. -/
def FilePath.spelt (workingDirectory : Location) (path : FilePath) : Location :=
  path.parts.foldl FileTree.along (if path.isAbsolute then [] else workingDirectory)

namespace FileTree

/-- Names that lead somewhere lead to the place that they spell. -/
theorem follow_eq_along {tree : FileTree} {names : List Text} {location final : Location}
    (h : names.foldlM tree.enter location = .ok final) : final = names.foldl along location := by
  induction names generalizing location with
  | nil => exact (Except.ok.inj h).symm
  | cons name names ih =>
      rw [List.foldlM_cons] at h
      obtain ⟨next, henter, hrest⟩ := bind_eq_ok.mp h
      obtain rfl : next = along location name := (enter_eq.mp henter).2
      exact ih hrest

/-- A path that leads somewhere leads to the place that it spells. -/
theorem locate_eq_spelt {tree : FileTree} {path : FilePath} {place : Location}
    (h : tree.locate path = .ok place) : place = path.spelt tree.workingDirectory :=
  follow_eq_along h

/-- Two trees have the same directories, and the same files outside some places. -/
structure AgreeOutside (places : Location → Prop) (first second : FileTree) : Prop where
  workingDirectory : second.workingDirectory = first.workingDirectory
  directories : ∀ location, second.node? location = some .directory ↔
    first.node? location = some .directory
  outside : ∀ location, ¬ places location → second.node? location = first.node? location

variable {places : Location → Prop} {first second : FileTree} {path : FilePath}

namespace AgreeOutside

/-- Agreement does not depend on which tree comes first. -/
theorem symm (h : AgreeOutside places first second) : AgreeOutside places second first :=
  ⟨h.workingDirectory.symm, fun location ↦ (h.directories location).symm,
    fun location hplace ↦ (h.outside location hplace).symm⟩

/-- One name leads to the same place. -/
theorem enter (h : AgreeOutside places first second) {location next : Location} {name : Text} :
    second.enter location name = .ok next ↔ first.enter location name = .ok next := by
  rw [enter_eq, enter_eq, h.directories]

/-- Names lead to the same place. -/
theorem follow (h : AgreeOutside places first second) {names : List Text} {location final : Location} :
    names.foldlM second.enter location = .ok final ↔ names.foldlM first.enter location = .ok final := by
  induction names generalizing location with
  | nil => rfl
  | cons name names ih =>
      simp only [List.foldlM_cons, bind_eq_ok, h.enter, ih]

/-- Relative paths begin at the same place. -/
theorem start_of (h : AgreeOutside places first second) (path : FilePath) :
    second.startOf path = first.startOf path := by
  unfold startOf
  rw [h.workingDirectory]

/-- A path leads to the same place. -/
theorem locate (h : AgreeOutside places first second) {place : Location} :
    second.locate path = .ok place ↔ first.locate path = .ok place := by
  unfold FileTree.locate
  rw [h.start_of]
  exact h.follow

/-- A text outside is read alike. -/
theorem read_text (h : AgreeOutside places first second)
    (hpath : ¬ places (path.spelt first.workingDirectory)) {text : Text} :
    second.readText path = .ok text ↔ first.readText path = .ok text := by
  have hsame {place : Location} (hlocate : first.locate path = .ok place) :
      second.node? place = first.node? place :=
    h.outside place (locate_eq_spelt hlocate ▸ hpath)
  constructor
  · intro hread
    obtain ⟨place, found, hlocate, hplace, rfl⟩ := file_of_read_text hread
    have hfirst := h.locate.mp hlocate
    exact read_text_of_file hfirst ((hsame hfirst).symm.trans hplace)
  · intro hread
    obtain ⟨place, found, hlocate, hplace, rfl⟩ := file_of_read_text hread
    exact read_text_of_file (h.locate.mpr hlocate) ((hsame hlocate).trans hplace)

/-- The same is set at one place of both trees. -/
theorem set_node (h : AgreeOutside places first second) {location : Location} (hroot : location ≠ [])
    (node : FileNode) :
    AgreeOutside places (first.setNode location node) (second.setNode location node) where
  workingDirectory := h.workingDirectory
  directories other := by
    rw [node_set_node second hroot, node_set_node first hroot]
    split
    · rfl
    · exact h.directories other
  outside other hother := by
    rw [node_set_node second hroot, node_set_node first hroot, h.outside other hother]

/-- A directory is entered or made in both trees. -/
theorem making (h : AgreeOutside places first second) {names : List Text} {last : Bool}
    {location place other : Location} {made after : FileTree}
    (hfirst : names.foldlM (enterMaking last) (first, location) = .ok (made, place))
    (hsecond : names.foldlM (enterMaking last) (second, location) = .ok (after, other)) :
    other = place ∧ AgreeOutside places made after := by
  induction names generalizing first second location with
  | nil =>
      obtain ⟨rfl, rfl⟩ := Prod.mk.inj (Except.ok.inj hfirst)
      obtain ⟨rfl, rfl⟩ := Prod.mk.inj (Except.ok.inj hsecond)
      exact ⟨rfl, h⟩
  | cons name names ih =>
      rw [List.foldlM_cons] at hfirst hsecond
      obtain ⟨⟨grown, next⟩, hstep, hrest⟩ := bind_eq_ok.mp hfirst
      obtain ⟨⟨grownSecond, nextSecond⟩, hstepSecond, hrestSecond⟩ := bind_eq_ok.mp hsecond
      obtain ⟨henter, hcases⟩ := enter_making_eq.mp hstep
      obtain ⟨henterSecond, hcasesSecond⟩ := enter_making_eq.mp hstepSecond
      obtain rfl := Except.ok.inj (henter.symm.trans (h.enter.mp henterSecond))
      -- A directory is made in one tree exactly if it is made in the other, since they have the same ones.
      rcases hcases with ⟨hthere, rfl⟩ | ⟨hnone, rfl⟩
      · rcases hcasesSecond with ⟨-, rfl⟩ | ⟨hnone, -⟩
        · exact ih h hrest hrestSecond
        · rw [(h.directories _).mpr hthere] at hnone
          exact absurd hnone (by simp)
      · rcases hcasesSecond with ⟨hthere, -⟩ | ⟨-, rfl⟩
        · rw [(h.directories _).mp hthere] at hnone
          exact absurd hnone (by simp)
        · have hroot : next ≠ [] := ne_root hnone (by simp)
          exact ih (h.set_node hroot .directory) hrest hrestSecond

/-- Directories are made in both trees. -/
theorem make_directories (h : AgreeOutside places first second) {made after : FileTree}
    (hfirst : first.makeDirectories path = .ok made)
    (hsecond : second.makeDirectories path = .ok after) : AgreeOutside places made after := by
  obtain ⟨⟨grown, location⟩, habove, hfirst⟩ := bind_eq_ok.mp hfirst
  obtain ⟨⟨found, final⟩, hlast, hfirst⟩ := bind_eq_ok.mp hfirst
  obtain rfl := Except.ok.inj hfirst
  obtain ⟨⟨grownSecond, locationSecond⟩, haboveSecond, hsecond⟩ := bind_eq_ok.mp hsecond
  obtain ⟨⟨foundSecond, finalSecond⟩, hlastSecond, hsecond⟩ := bind_eq_ok.mp hsecond
  obtain rfl := Except.ok.inj hsecond
  rw [h.start_of] at haboveSecond
  obtain ⟨rfl, hgrown⟩ := h.making habove haboveSecond
  exact (hgrown.making hlast hlastSecond).2

end AgreeOutside

/-- Changing a file changes nothing elsewhere. -/
theorem agree_of_set_file {tree : FileTree} {place : Location} {held content : Content}
    (h : tree.node? place = some (.file held)) :
    AgreeOutside (· = place) tree (tree.setNode place (.file content)) := by
  have hroot : place ≠ [] := ne_root h (by simp)
  refine ⟨rfl, fun location ↦ ?_, fun location hother ↦ ?_⟩
  · rw [node_set_node tree hroot]
    split
    · next hsame => simp [hsame, h]
    · rfl
  · rw [node_set_node tree hroot, if_neg hother]

section Removing

/-- A tree with only some of its files and directories. -/
def restrict (tree : FileTree) (keep : Location → Bool) : FileTree :=
  { tree with nodes := tree.nodes.filter fun entry ↦ keep entry.1 }

/-- What is kept stands where it stood, and nothing else is there apart from the root. -/
theorem node_restrict (tree : FileTree) (keep : Location → Bool) {location : Location}
    (hroot : location ≠ []) :
    (tree.restrict keep).node? location = if keep location then tree.node? location else none := by
  have hempty : location.isEmpty = false := by simpa using hroot
  unfold node? restrict
  simp only [hempty, Bool.false_eq_true, if_false]
  induction tree.nodes with
  | nil => simp
  | cons entry entries ih =>
      obtain ⟨place, node⟩ := entry
      by_cases hsame : location = place
      · subst hsame
        cases hkeep : keep location with
        | true => simp [hkeep]
        | false =>
            rw [List.filter_cons_of_neg (by simp [hkeep]), ih, hkeep]
            rfl
      · have hother : (location == place) = false := by simpa using hsame
        cases hkeep : keep place with
        | true =>
            rw [List.filter_cons_of_pos (by simpa using hkeep), List.lookup_cons, List.lookup_cons,
              hother]
            exact ih
        | false =>
            rw [List.filter_cons_of_neg (by simp [hkeep]), List.lookup_cons, hother]
            exact ih

/-- The same is removed from both trees. -/
theorem AgreeOutside.restrict (h : AgreeOutside places first second) (keep : Location → Bool) :
    AgreeOutside places (first.restrict keep) (second.restrict keep) where
  workingDirectory := h.workingDirectory
  directories location := by
    by_cases hroot : location = []
    · subst hroot
      exact iff_of_true rfl rfl
    · rw [node_restrict second keep hroot, node_restrict first keep hroot]
      split
      · exact h.directories location
      · rfl
  outside location hplace := by
    by_cases hroot : location = []
    · subst hroot
      rfl
    · rw [node_restrict second keep hroot, node_restrict first keep hroot, h.outside location hplace]

/-- Emptying a directory keeps the directory and what does not stand below it. -/
theorem empty_directory_eq {tree after : FileTree} (h : tree.emptyDirectory path = .ok after) :
    ∃ location, tree.locate path = .ok location ∧ tree.node? location = some .directory ∧
      after = tree.restrict fun place ↦ !location.isPrefixOf place || place == location := by
  obtain ⟨location, hlocate, h⟩ := bind_eq_ok.mp h
  refine ⟨location, hlocate, ?_⟩
  split at h
  · exact absurd h (by simp)
  · exact absurd h (by simp)
  · next hplace => exact ⟨hplace, (Except.ok.inj h).symm⟩

/-- Removing a directory keeps what does not stand below it. -/
theorem remove_directory_eq {tree after : FileTree} (h : tree.removeDirectory path = .ok after) :
    ∃ location, tree.locate path = .ok location ∧ tree.node? location = some .directory ∧
      after = tree.restrict fun place ↦ !location.isPrefixOf place := by
  unfold removeDirectory at h
  split at h
  · exact absurd h (by simp [throw, throwThe, MonadExceptOf.throw, bind, Except.bind])
  · obtain ⟨location, hlocate, h⟩ := bind_eq_ok.mp h
    refine ⟨location, hlocate, ?_⟩
    split at h
    · exact absurd h (by simp)
    · exact absurd h (by simp)
    · next hplace => exact ⟨hplace, (Except.ok.inj h).symm⟩

end Removing

/-- The same stands everywhere in two trees, and relative paths begin at the same place. -/
structure Alike (first second : FileTree) : Prop where
  workingDirectory : second.workingDirectory = first.workingDirectory
  nodes : ∀ location, second.node? location = first.node? location

section Alike

variable {after rest : FileTree} {source target : FilePath} {held : Content}

/-- Trees are alike if they have the same directories and agree outside no places. -/
theorem alike_of_agree (h : AgreeOutside (fun _ ↦ False) first second) : Alike first second :=
  ⟨h.workingDirectory, fun location ↦ h.outside location id⟩

namespace Alike

/-- Trees that are alike have the same directories, and agree outside no places. -/
theorem agree (h : Alike first second) : AgreeOutside (fun _ ↦ False) first second :=
  ⟨h.workingDirectory, fun location ↦ by rw [h.nodes], fun location _ ↦ h.nodes location⟩

section Reading

/-- A path leads to the same place, or fails in the same way. -/
theorem locate (h : Alike first second) (path : FilePath) : second.locate path = first.locate path := by
  have henter : second.enter = first.enter := by
    funext location name
    unfold FileTree.enter
    rw [h.nodes]
  unfold FileTree.locate startOf
  rw [henter, h.workingDirectory]

/-- A path leads to the same thing. -/
theorem at_eq (h : Alike first second) (path : FilePath) : second.at? path = first.at? path := by
  unfold at?
  rw [h.locate]
  cases first.locate path with
  | ok location => exact h.nodes location
  | error error => rfl

/-- A path leads to a file in both or in none. -/
theorem is_file (h : Alike first second) (path : FilePath) : second.isFile path = first.isFile path := by
  unfold isFile
  rw [h.at_eq]

/-- A path leads to a directory in both or in none. -/
theorem is_directory (h : Alike first second) (path : FilePath) :
    second.isDirectory path = first.isDirectory path := by
  unfold isDirectory
  rw [h.at_eq]

/-- A file has the same content. -/
theorem content (h : Alike first second) (path : FilePath) : second.content path = first.content path := by
  unfold FileTree.content
  rw [h.locate]
  cases first.locate path with
  | ok location =>
      simp only [bind, Except.bind]
      rw [h.nodes]
  | error error => rfl

/-- A text is read alike. -/
theorem read_text (h : Alike first second) (path : FilePath) :
    second.readText path = first.readText path := by
  unfold readText
  rw [h.content]

end Reading

section Changing

/-- Making directories in both leaves them alike. -/
theorem make_directories (h : Alike first second) (hfirst : first.makeDirectories path = .ok after)
    (hsecond : second.makeDirectories path = .ok rest) : Alike after rest :=
  alike_of_agree (h.agree.make_directories hfirst hsecond)

/-- Writing a file in both leaves them alike. -/
theorem write (h : Alike first second) (hfirst : first.write path held = .ok after)
    (hsecond : second.write path held = .ok rest) : Alike after rest := by
  obtain ⟨location, hlocate, hplace, rfl⟩ := write_eq.mp hfirst
  obtain ⟨other, hother, -, rfl⟩ := write_eq.mp hsecond
  rw [h.locate, hlocate] at hother
  obtain rfl := Except.ok.inj hother
  exact alike_of_agree (h.agree.set_node (ne_root rfl hplace) _)

/-- Writing a file with its directory in both leaves them alike. -/
theorem write_making (h : Alike first second) (hfirst : first.writeMaking path held = .ok after)
    (hsecond : second.writeMaking path held = .ok rest) : Alike after rest := by
  obtain ⟨made, hmade, hwrite⟩ := bind_eq_ok.mp hfirst
  obtain ⟨other, hother, hwriteOther⟩ := bind_eq_ok.mp hsecond
  exact (h.make_directories hmade hother).write hwrite hwriteOther

/-- Copying a file in both leaves them alike. -/
theorem copy_file (h : Alike first second) (hfirst : first.copyFile source target = .ok after)
    (hsecond : second.copyFile source target = .ok rest) : Alike after rest := by
  obtain ⟨copied, hcopied, hfirst⟩ := bind_eq_ok.mp hfirst
  obtain ⟨found, hfound, hsecond⟩ := bind_eq_ok.mp hsecond
  rw [h.content, hcopied] at hfound
  obtain rfl := Except.ok.inj hfound
  rw [h.is_directory] at hsecond
  exact h.write hfirst hsecond

end Changing

end Alike

end Alike

end FileTree

end LocalizedSite
