import LocalizedSite.Files.Tree
import LocalizedSite.Proofs.Outcome

/-!
# Writing files

A file that is written with the directories above it can be read (`content_of_write_making`), and writing it
again replaces it: the first of two writes leaves no trace (`write_making_again`). Reading a text replaces
its line breaks, piece by piece (`replace_returns_append`).
-/

namespace LocalizedSite

namespace FileTree

/-- Where no directory stands, there is not the root. -/
theorem ne_root {tree : FileTree} {location : Location} {found : Option FileNode}
    (h : tree.node? location = found) (hfound : found ≠ some .directory) : location ≠ [] := by
  rintro rfl
  exact hfound h.symm

/-- Setting a node changes what stands at its location alone. -/
theorem node_set_node (tree : FileTree) {location : Location} (hlocation : location ≠ [])
    (node : FileNode) (other : Location) :
    (tree.setNode location node).node? other =
      if other = location then some node else tree.node? other := by
  by_cases hroot : other = []
  · subst hroot
    rw [if_neg (Ne.symm hlocation)]
    rfl
  · have hempty : other.isEmpty = false := by
      rw [List.isEmpty_eq_false_iff]
      exact hroot
    simp only [node?, setNode, hempty, Bool.false_eq_true, if_false, List.lookup_cons]
    by_cases h : other = location
    · simp [h]
    · rw [beq_eq_false_iff_ne.mpr h, if_neg h]
      induction tree.nodes with
      | nil => rfl
      | cons entry entries ih =>
          obtain ⟨place, found⟩ := entry
          by_cases hplace : place = location
          · have hother : (other == place) = false := by
              rw [hplace]
              exact beq_eq_false_iff_ne.mpr h
            simpa [hplace, List.lookup_cons, beq_eq_false_iff_ne.mpr h] using ih
          · simp only [List.filter_cons, bne_iff_ne.mpr hplace, if_true, List.lookup_cons, ih]

/-- The second of two nodes set at a location counts. -/
theorem set_node_set_node (tree : FileTree) (location : Location) (first second : FileNode) :
    (tree.setNode location first).setNode location second = tree.setNode location second := by
  simp [setNode]

/-- Every directory of one tree is one of another tree, and relative paths begin at the same place. -/
structure Grows (before after : FileTree) : Prop where
  workingDirectory : after.workingDirectory = before.workingDirectory
  directories : ∀ location, before.node? location = some .directory →
    after.node? location = some .directory

/-- Every tree grows to itself. -/
theorem Grows.refl (tree : FileTree) : Grows tree tree :=
  ⟨rfl, fun _ h ↦ h⟩

/-- Growing goes on. -/
theorem Grows.trans {first second third : FileTree} (h : Grows first second)
    (hnext : Grows second third) : Grows first third :=
  ⟨hnext.workingDirectory.trans h.workingDirectory,
    fun location hplace ↦ hnext.directories location (h.directories location hplace)⟩

/-- A tree grows when something is set where there is no directory. -/
theorem grows_set_node {tree : FileTree} {location : Location}
    (h : tree.node? location ≠ some .directory) (node : FileNode) :
    Grows tree (tree.setNode location node) := by
  have hlocation : location ≠ [] := by
    rintro rfl
    exact h rfl
  refine ⟨rfl, fun other hother ↦ ?_⟩
  rw [node_set_node tree hlocation]
  split
  · next heq =>
      rw [heq] at hother
      exact absurd hother h
  · exact hother

/-- Some names lead from a location through directories to a directory. -/
inductive Leads (tree : FileTree) : Location → List Text → Location → Prop
  | here (location : Location) : Leads tree location [] location
  | step {location next final : Location} {name : Text} {names : List Text}
      (henter : tree.enter location name = .ok next) (hnext : tree.node? next = some .directory)
      (h : Leads tree next names final) : Leads tree location (name :: names) final

/-- A name leads to the same location in a tree that has grown. -/
theorem enter_of_grows {before after : FileTree} (hgrows : Grows before after)
    {location next : Location} {name : Text} (h : before.enter location name = .ok next) :
    after.enter location name = .ok next := by
  unfold enter at h ⊢
  split at h
  · exact absurd h (by simp)
  · exact absurd h (by simp)
  · next hplace =>
      rw [hgrows.directories _ hplace]
      exact h

/-- Names lead to the same directory in a tree that has grown. -/
theorem Leads.of_grows {before after : FileTree} (hgrows : Grows before after)
    {location final : Location} {names : List Text} (h : before.Leads location names final) :
    after.Leads location names final := by
  induction h with
  | here location => exact .here location
  | step henter hnext _ ih =>
      exact .step (enter_of_grows hgrows henter) (hgrows.directories _ hnext) ih

/-- Names that lead on lead through a directory in between. -/
theorem Leads.split {tree : FileTree} {front back : List Text} {first third : Location}
    (h : tree.Leads first (front ++ back) third) :
    ∃ second, tree.Leads first front second ∧ tree.Leads second back third := by
  induction front generalizing first with
  | nil => exact ⟨first, .here first, h⟩
  | cons name names ih =>
      cases h with
      | step henter hnext hrest =>
          obtain ⟨second, hfront, hback⟩ := ih hrest
          exact ⟨second, .step henter hnext hfront, hback⟩

/-- Names that lead to a directory are followed to it. -/
theorem Leads.locate {tree : FileTree} {location final : Location} {names : List Text}
    (h : tree.Leads location names final) : names.foldlM tree.enter location = .ok final := by
  induction h with
  | here _ => rfl
  | step henter _ _ ih =>
      rw [List.foldlM_cons, henter]
      exact ih

/-- Making a directory by one name: it is there already, or nothing is. -/
theorem enter_making_eq {tree made : FileTree} {location next : Location} {name : Text}
    {last : Bool} : enterMaking last (tree, location) name = .ok (made, next) ↔
      tree.enter location name = .ok next ∧
        (tree.node? next = some .directory ∧ made = tree ∨
          tree.node? next = none ∧ made = tree.setNode next .directory) := by
  unfold enterMaking
  rw [bind_eq_ok]
  constructor
  · rintro ⟨found, henter, h⟩
    split at h
    · next hplace =>
        obtain ⟨rfl, rfl⟩ := Prod.mk.inj (Except.ok.inj h)
        exact ⟨henter, .inl ⟨hplace, rfl⟩⟩
    · exact absurd h (by simp)
    · next hplace =>
        obtain ⟨rfl, rfl⟩ := Prod.mk.inj (Except.ok.inj h)
        exact ⟨henter, .inr ⟨hplace, rfl⟩⟩
  · rintro ⟨henter, ⟨hplace, rfl⟩ | ⟨hplace, rfl⟩⟩
    · exact ⟨next, henter, by rw [hplace]⟩
    · exact ⟨next, henter, by rw [hplace]⟩

/-- Making directories that are there changes nothing. -/
theorem Leads.making {tree : FileTree} {location final : Location} {names : List Text}
    (h : tree.Leads location names final) (last : Bool) :
    names.foldlM (enterMaking last) (tree, location) = .ok (tree, final) := by
  induction h with
  | here _ => rfl
  | step henter hnext _ ih =>
      rw [List.foldlM_cons, enter_making_eq.mpr ⟨henter, .inl ⟨hnext, rfl⟩⟩]
      exact ih

/-- Making directories lets the tree grow, and the names then lead through directories. -/
theorem leads_of_making {names : List Text} {tree made : FileTree} {location final : Location}
    {last : Bool} (h : names.foldlM (enterMaking last) (tree, location) = .ok (made, final)) :
    Grows tree made ∧ made.Leads location names final := by
  induction names generalizing tree location with
  | nil =>
      obtain ⟨rfl, rfl⟩ := Prod.mk.inj (Except.ok.inj h)
      exact ⟨.refl tree, .here location⟩
  | cons name names ih =>
      rw [List.foldlM_cons] at h
      obtain ⟨⟨grown, next⟩, hstep, hrest⟩ := bind_eq_ok.mp h
      obtain ⟨hgrows, hleads⟩ := ih hrest
      obtain ⟨henter, hcases⟩ := enter_making_eq.mp hstep
      rcases hcases with ⟨hplace, rfl⟩ | ⟨hplace, rfl⟩
      · exact ⟨hgrows, .step (enter_of_grows hgrows henter) (hgrows.directories _ hplace) hleads⟩
      · have hfirst : Grows tree (tree.setNode next .directory) :=
          grows_set_node (by rw [hplace]; simp) _
        have hnext : next ≠ [] := ne_root hplace (by simp)
        have hmade : (tree.setNode next .directory).node? next = some .directory := by
          rw [node_set_node tree hnext, if_pos rfl]
        have hgrown := hfirst.trans hgrows
        exact ⟨hgrown, .step (enter_of_grows hgrown henter) (hgrows.directories _ hmade) hleads⟩

/-- The names of a path are those before the last one and the last one. -/
theorem parts_split (parts : List Text) : parts.dropLast ++ parts.getLast?.toList = parts := by
  cases parts with
  | nil => rfl
  | cons name names =>
      rw [List.getLast?_eq_some_getLast (List.cons_ne_nil name names)]
      exact List.dropLast_append_getLast (List.cons_ne_nil name names)

/-- Making a directory is entering its names one after another, making each. -/
theorem making_of_make_directories {tree made : FileTree} {path : FilePath}
    (h : tree.makeDirectories path = .ok made) :
    ∃ final, path.parts.foldlM (enterMaking true) (tree, tree.startOf path) = .ok (made, final) := by
  have hlast (names : List Text) (state : FileTree × Location) (result : FileTree × Location) :
      names.foldlM (enterMaking false) state = .ok result →
        names.foldlM (enterMaking true) state = .ok result := by
    induction names generalizing state with
    | nil => exact id
    | cons name names ih =>
        intro hnames
        rw [List.foldlM_cons] at hnames ⊢
        obtain ⟨⟨grown, next⟩, hstep, hrest⟩ := bind_eq_ok.mp hnames
        exact bind_eq_ok.mpr ⟨_, enter_making_eq.mpr (enter_making_eq.mp hstep), ih _ hrest⟩
  unfold makeDirectories at h
  obtain ⟨above, habove, h⟩ := bind_eq_ok.mp h
  obtain ⟨⟨found, final⟩, hfinal, h⟩ := bind_eq_ok.mp h
  obtain rfl : found = made := Except.ok.inj h
  refine ⟨final, ?_⟩
  rw [← parts_split path.parts, List.foldlM_append]
  exact bind_eq_ok.mpr ⟨above, hlast _ _ _ habove, hfinal⟩

/-- Made directories are there. -/
theorem leads_of_make_directories {tree made : FileTree} {path : FilePath}
    (h : tree.makeDirectories path = .ok made) :
    Grows tree made ∧ ∃ final, made.Leads (made.startOf path) path.parts final := by
  obtain ⟨final, hmaking⟩ := making_of_make_directories h
  obtain ⟨hgrows, hleads⟩ := leads_of_making hmaking
  have hstart : made.startOf path = tree.startOf path := by
    unfold startOf
    rw [hgrows.workingDirectory]
  rw [hstart]
  exact ⟨hgrows, final, hleads⟩

/-- Directories that are there are made by changing nothing. -/
theorem make_directories_there {tree : FileTree} {path : FilePath} {final : Location}
    (h : tree.Leads (tree.startOf path) path.parts final) : tree.makeDirectories path = .ok tree := by
  rw [← parts_split path.parts] at h
  obtain ⟨middle, hfront, hback⟩ := h.split
  unfold makeDirectories
  rw [hfront.making]
  show (path.parts.getLast?.toList.foldlM (enterMaking true) (tree, middle) >>= _) = _
  rw [hback.making]
  rfl

/-- A file is written where a path leads, if no directory is there. -/
theorem write_eq {tree after : FileTree} {path : FilePath} {content : Content} :
    tree.write path content = .ok after ↔
      ∃ location, tree.locate path = .ok location ∧ tree.node? location ≠ some .directory ∧
        after = tree.setNode location (.file content) := by
  unfold write
  rw [bind_eq_ok]
  constructor
  · rintro ⟨location, hlocate, h⟩
    split at h
    · exact absurd h (by simp)
    · next hplace => exact ⟨location, hlocate, hplace, (Except.ok.inj h).symm⟩
  · rintro ⟨location, hlocate, hplace, rfl⟩
    refine ⟨location, hlocate, ?_⟩
    split
    · next hdirectory => exact absurd hdirectory hplace
    · rfl

/-- A path leads to the same location in a tree that has grown. -/
theorem locate_of_grows {before after : FileTree} (hgrows : Grows before after) {path : FilePath}
    {location : Location} (h : before.locate path = .ok location) :
    after.locate path = .ok location := by
  have hstart : after.startOf path = before.startOf path := by
    unfold startOf
    rw [hgrows.workingDirectory]
  unfold locate at h ⊢
  rw [hstart]
  generalize before.startOf path = start at h ⊢
  generalize path.parts = names at h ⊢
  induction names generalizing start with
  | nil => exact h
  | cons name names ih =>
      rw [List.foldlM_cons] at h ⊢
      obtain ⟨next, henter, hrest⟩ := bind_eq_ok.mp h
      exact bind_eq_ok.mpr ⟨next, enter_of_grows hgrows henter, ih next hrest⟩

/-- Writing a file with the directories above it lets the tree grow, and sets the file where its path
leads. -/
theorem write_making_spec {tree after : FileTree} {path : FilePath} {content : Content}
    (h : tree.writeMaking path content = .ok after) : ∃ made location,
      tree.makeDirectories path.parent = .ok made ∧ Grows tree made ∧ Grows made after ∧
        made.locate path = .ok location ∧ made.node? location ≠ some .directory ∧
          after = made.setNode location (.file content) := by
  obtain ⟨made, hmade, hwrite⟩ := bind_eq_ok.mp h
  obtain ⟨location, hlocate, hplace, rfl⟩ := write_eq.mp hwrite
  exact ⟨made, location, hmade, (leads_of_make_directories hmade).1, grows_set_node hplace _,
    hlocate, hplace, rfl⟩

/-- What was written stands where its path leads. -/
theorem node_of_write_making {tree after : FileTree} {path : FilePath} {content : Content}
    (h : tree.writeMaking path content = .ok after) : ∃ location,
      after.locate path = .ok location ∧ after.node? location = some (.file content) := by
  obtain ⟨made, location, -, -, hgrows, hlocate, hplace, rfl⟩ := write_making_spec h
  refine ⟨location, locate_of_grows hgrows hlocate, ?_⟩
  have hlocation : location ≠ [] := by
    rintro rfl
    exact hplace rfl
  rw [node_set_node made hlocation, if_pos rfl]

/-- The content of a file that was written. -/
theorem content_of_write_making {tree after : FileTree} {path : FilePath} {content : Content}
    (h : tree.writeMaking path content = .ok after) : after.content path = .ok content := by
  obtain ⟨location, hlocate, hplace⟩ := node_of_write_making h
  simp only [FileTree.content, hlocate, hplace, bind, Except.bind]

/-- What was written is a file. -/
theorem is_file_of_write_making {tree after : FileTree} {path : FilePath} {content : Content}
    (h : tree.writeMaking path content = .ok after) : after.isFile path = true := by
  obtain ⟨location, hlocate, hplace⟩ := node_of_write_making h
  simp only [isFile, at?, hlocate, hplace]

/-- Writing a file again gives the same tree as writing the second content alone. -/
theorem write_making_again {tree after : FileTree} {path : FilePath} {content : Content}
    (h : tree.writeMaking path content = .ok after) (other : Content) :
    after.writeMaking path other = tree.writeMaking path other := by
  obtain ⟨made, location, hmade, -, hgrows, hlocate, hplace, rfl⟩ := write_making_spec h
  obtain ⟨-, final, hleads⟩ := leads_of_make_directories hmade
  have hthere : (made.setNode location (.file content)).makeDirectories path.parent =
      .ok (made.setNode location (.file content)) :=
    make_directories_there (hleads.of_grows hgrows)
  have hlocation : location ≠ [] := by
    rintro rfl
    exact hplace rfl
  have hfile : (made.setNode location (.file content)).node? location ≠ some .directory := by
    rw [node_set_node made hlocation, if_pos rfl]
    simp
  have hfirst : (made.setNode location (.file content)).write path other =
      .ok (made.setNode location (.file other)) :=
    write_eq.mpr ⟨location, locate_of_grows hgrows hlocate, hfile,
      (set_node_set_node made location _ _).symm⟩
  have hsecond : made.write path other = .ok (made.setNode location (.file other)) :=
    write_eq.mpr ⟨location, hlocate, hplace, rfl⟩
  unfold writeMaking
  rw [hthere, hmade]
  exact hfirst.trans hsecond.symm

/-- Whether a file can be written does not depend on its content. -/
theorem write_making_error {tree : FileTree} {path : FilePath} {content : Content}
    {error : FileError} (h : tree.writeMaking path content = .error error) (other : Content) :
    tree.writeMaking path other = .error error := by
  unfold writeMaking at h ⊢
  cases hmade : tree.makeDirectories path.parent with
  | error cause =>
      rw [hmade] at h
      exact h
  | ok made =>
      rw [hmade] at h
      show made.write path other = .error error
      replace h : made.write path content = .error error := h
      unfold write at h ⊢
      cases hlocate : made.locate path with
      | error cause =>
          rw [hlocate] at h
          exact h
      | ok location =>
          rw [hlocate] at h
          simp only [bind, Except.bind] at h ⊢
          split at h
          · exact h
          · exact absurd h (by simp)

section LineBreaks

/-- A piece without carriage returns stays. -/
theorem replace_returns_append_of_not_mem {piece : Text} (h : '\r' ∉ piece) (rest : Text) :
    replaceReturns (piece ++ rest) = piece ++ replaceReturns rest := by
  induction piece with
  | nil => rfl
  | cons character piece ih =>
      simp only [List.mem_cons, not_or] at h
      have hcharacter : character = '\r' → False := fun heq ↦ h.1 heq.symm
      rw [List.cons_append, replaceReturns.eq_4 _ _ (fun _ heq _ ↦ hcharacter heq) hcharacter,
        ih h.2, List.cons_append]

/-- The line breaks of two texts are replaced apart if the second one begins with no line feed. -/
theorem replace_returns_append (front : Text) {character : Char} (h : character ≠ '\n')
    (rest : Text) : replaceReturns (front ++ character :: rest) =
      replaceReturns front ++ replaceReturns (character :: rest) := by
  -- what follows is no line feed in front of which a carriage return would disappear
  have hbehind {front : Text} (hnext : ∀ rest, front = '\n' :: rest → False) (rest' : Text) :
      front ++ character :: rest = '\n' :: rest' → False := by
    intro heq
    cases front with
    | nil => exact h (List.cons.inj heq).1
    | cons first front => exact hnext front (by rw [(List.cons.inj heq).1])
  fun_induction replaceReturns front with
  | case1 => rfl
  | case2 front ih => rw [List.cons_append, List.cons_append, replaceReturns.eq_2, ih, List.cons_append]
  | case3 front hnext ih =>
      rw [List.cons_append, replaceReturns.eq_3 _ (hbehind hnext), ih, List.cons_append]
  | case4 other front hpair hother ih =>
      rw [List.cons_append, replaceReturns.eq_4 _ _ (fun _ heq _ ↦ hother heq) hother, ih,
        List.cons_append]

/-- A text is read with every line break replaced. -/
theorem line_feeds_eq_replace (text : Text) : lineFeeds text = replaceReturns text := by
  unfold lineFeeds
  split
  · rfl
  · next hany =>
      have hmem : '\r' ∉ text := fun hmem ↦ hany (List.any_eq_true.mpr ⟨_, hmem, rfl⟩)
      simpa [replaceReturns] using (replace_returns_append_of_not_mem hmem []).symm

end LineBreaks

end FileTree

end LocalizedSite
