import LocalizedSite.Proofs.Files.Tree
import Mathlib.Data.List.Induction

/-!
# Closed trees of files

Making directories brings no files, writing a file changes nothing elsewhere (`node_elsewhere`,
`file_elsewhere`), and in a closed tree, in which everything stands in a directory,
names that do not lead back reach the location that they spell.
-/

namespace LocalizedSite

namespace FileTree

/-- What stands anywhere stands in a directory. -/
def IsClosed (tree : FileTree) : Prop :=
  ∀ location name, tree.node? (location ++ [name]) ≠ none → tree.node? location = some .directory

/-- A tree is closed if each of its nodes stands in a directory. -/
theorem is_closed_of_nodes {tree : FileTree}
    (h : ∀ entry ∈ tree.nodes, tree.node? entry.1.dropLast = some .directory) : tree.IsClosed := by
  intro location name hplace
  have hempty : (location ++ [name]).isEmpty = false := by simp
  unfold node? at hplace
  rw [hempty, if_neg (by decide), Ne, List.lookup_eq_none_iff] at hplace
  obtain ⟨entry, hentry, hsame⟩ := not_forall₂.mp hplace
  have hlocation : location ++ [name] = entry.1 := by simpa using hsame
  have habove := h entry hentry
  rw [← hlocation, List.dropLast_concat] at habove
  exact habove

/-- A name leads from a directory. -/
theorem enter_eq {tree : FileTree} {location next : Location} {name : Text} :
    tree.enter location name = .ok next ↔ tree.node? location = some .directory ∧
      next = if name = upName then location.dropLast else location ++ [name] := by
  unfold enter
  split
  · next hplace => simp [hplace]
  · next hplace => simp [hplace]
  · next hplace =>
      rw [Except.ok.injEq]
      exact ⟨fun h ↦ ⟨hplace, h.symm⟩, fun h ↦ h.2.symm⟩

/-- Making directories brings no files. -/
theorem file_of_making {names : List Text} {tree made : FileTree} {location final : Location}
    {last : Bool} (h : names.foldlM (enterMaking last) (tree, location) = .ok (made, final))
    {place : Location} {content : Content} (hplace : made.node? place = some (.file content)) :
    tree.node? place = some (.file content) := by
  induction names generalizing tree location with
  | nil =>
      obtain ⟨rfl, -⟩ := Prod.mk.inj (Except.ok.inj h)
      exact hplace
  | cons name names ih =>
      rw [List.foldlM_cons] at h
      obtain ⟨⟨grown, next⟩, hstep, hrest⟩ := bind_eq_ok.mp h
      have hgrown := ih hrest
      obtain ⟨-, ⟨-, rfl⟩ | ⟨hnone, rfl⟩⟩ := enter_making_eq.mp hstep
      · exact hgrown
      · have hnext : next ≠ [] := ne_root hnone (by simp)
        rw [node_set_node tree hnext] at hgrown
        split at hgrown
        · exact absurd hgrown (by simp)
        · exact hgrown

/-- Making a directory and those above it brings no files. -/
theorem file_of_make_directories {tree made : FileTree} {path : FilePath}
    (h : tree.makeDirectories path = .ok made) {place : Location} {content : Content}
    (hplace : made.node? place = some (.file content)) :
    tree.node? place = some (.file content) := by
  obtain ⟨final, hmaking⟩ := making_of_make_directories h
  exact file_of_making hmaking hplace

/-- Making directories leaves everything that stands. -/
theorem node_of_making {names : List Text} {tree made : FileTree} {location final : Location}
    {last : Bool} (h : names.foldlM (enterMaking last) (tree, location) = .ok (made, final))
    {place : Location} {node : FileNode} (hplace : tree.node? place = some node) :
    made.node? place = some node := by
  let holds (state : FileTree × Location) : Prop := state.1.node? place = some node
  refine foldlM_keeps holds (fun name _ state next hstep hstands ↦ ?_) h hplace
  obtain ⟨-, ⟨-, hsame⟩ | ⟨hnone, hset⟩⟩ := enter_making_eq.mp hstep
  · show next.1.node? place = some node
    rw [hsame]
    exact hstands
  · have hne : place ≠ next.2 := by
      rintro rfl
      exact absurd (hnone.symm.trans hstands) (by simp)
    show next.1.node? place = some node
    rw [hset, node_set_node state.1 (ne_root hnone (by simp)), if_neg hne]
    exact hstands

/-- Making a directory and those above it leaves everything that stands. -/
theorem node_of_make_directories {tree made : FileTree} {path : FilePath}
    (h : tree.makeDirectories path = .ok made) {place : Location} {node : FileNode}
    (hplace : tree.node? place = some node) : made.node? place = some node := by
  obtain ⟨final, hmaking⟩ := making_of_make_directories h
  exact node_of_making hmaking hplace

section Elsewhere

variable {tree after : FileTree} {path : FilePath} {content : Content} {location place : Location}

/-- Elsewhere, writing a file does what making the directories above it does. -/
theorem made_elsewhere (h : tree.writeMaking path content = .ok after)
    (hlocate : after.locate path = .ok location) (hne : place ≠ location) :
    ∃ made, tree.makeDirectories path.parent = .ok made ∧ after.node? place = made.node? place := by
  obtain ⟨made, found, hmade, -, hgrows, hfound, hnode, rfl⟩ := write_making_spec h
  obtain rfl : found = location :=
    Except.ok.inj ((locate_of_grows hgrows hfound).symm.trans hlocate)
  have hlocation : found ≠ [] := by
    rintro rfl
    exact hnode rfl
  refine ⟨made, hmade, ?_⟩
  rw [node_set_node made hlocation, if_neg hne]

/-- Writing a file leaves everything that stands elsewhere. -/
theorem node_elsewhere (h : tree.writeMaking path content = .ok after)
    (hlocate : after.locate path = .ok location) (hne : place ≠ location) {node : FileNode}
    (hplace : tree.node? place = some node) : after.node? place = some node := by
  obtain ⟨made, hmade, hsame⟩ := made_elsewhere h hlocate hne
  rw [hsame]
  exact node_of_make_directories hmade hplace

/-- Writing a file leaves the files elsewhere as they are. -/
theorem file_elsewhere (h : tree.writeMaking path content = .ok after)
    (hlocate : after.locate path = .ok location) (hne : place ≠ location) (other : Content) :
    after.node? place = some (.file other) ↔ tree.node? place = some (.file other) := by
  refine ⟨fun hplace ↦ ?_, node_elsewhere h hlocate hne⟩
  obtain ⟨made, hmade, hsame⟩ := made_elsewhere h hlocate hne
  rw [hsame] at hplace
  exact file_of_make_directories hmade hplace

/-- A tree grows when a file is written. -/
theorem grows_of_write_making (h : tree.writeMaking path content = .ok after) : Grows tree after := by
  obtain ⟨made, _, -, hmade, hgrows, -⟩ := write_making_spec h
  exact hmade.trans hgrows

/-- A path has a content exactly if it leads to a file. -/
theorem content_eq_ok : tree.content path = .ok content ↔
    ∃ place, tree.locate path = .ok place ∧ tree.node? place = some (.file content) := by
  unfold FileTree.content
  rw [bind_eq_ok]
  refine exists_congr fun place ↦ and_congr_right fun _ ↦ ?_
  cases tree.node? place with
  | none => simp
  | some node => cases node <;> simp

/-- A path leads to a file exactly if it has a content. -/
theorem is_file_iff : tree.isFile path = true ↔ ∃ content, tree.content path = .ok content := by
  simp only [content_eq_ok]
  unfold isFile at?
  cases tree.locate path with
  | error error => simp
  | ok place =>
      cases hplace : tree.node? place with
      | none => simp [hplace]
      | some node => cases node <;> simp [hplace]

/-- A file is there if it can be read. -/
theorem is_file_of_read_text {text : Text} (h : tree.readText path = .ok text) :
    tree.isFile path = true := by
  obtain ⟨content, hcontent, -⟩ := bind_eq_ok.mp h
  exact is_file_iff.mpr ⟨content, hcontent⟩

/-- A path that leads to the same thing is read alike. -/
theorem read_text_congr (hbefore : tree.locate path = .ok place)
    (hafter : after.locate path = .ok place) (hplace : after.node? place = tree.node? place) :
    after.readText path = tree.readText path := by
  simp only [readText, FileTree.content, hbefore, hafter, hplace, bind, Except.bind]

/-- What a path that leads to a file is read as. -/
theorem read_text_of_file (hlocate : tree.locate path = .ok place) {text : Text}
    (hplace : tree.node? place = some (.file (.text text))) :
    tree.readText path = .ok (lineFeeds text) := by
  simp only [readText, FileTree.content, hlocate, hplace, bind, Except.bind]

/-- What is read as a text is the text of a file. -/
theorem file_of_read_text {text : Text} (h : tree.readText path = .ok text) :
    ∃ place found, tree.locate path = .ok place ∧ tree.node? place = some (.file (.text found)) ∧
      text = lineFeeds found := by
  obtain ⟨content, hcontent, htext⟩ := bind_eq_ok.mp h
  obtain ⟨place, hlocate, hplace⟩ := content_eq_ok.mp hcontent
  cases content with
  | text written => exact ⟨place, written, hlocate, hplace, (Except.ok.inj htext).symm⟩
  | bytes bytes => exact absurd htext (by simp)

/-- A path to a file leads to a place with some content. -/
theorem exists_place_of_is_file (h : tree.isFile path = true) :
    ∃ place content, tree.locate path = .ok place ∧ tree.node? place = some (.file content) := by
  obtain ⟨content, hcontent⟩ := is_file_iff.mp h
  obtain ⟨place, hplace⟩ := content_eq_ok.mp hcontent
  exact ⟨place, content, hplace⟩

end Elsewhere

/-- Above what stands somewhere something stands in a closed tree. -/
theorem IsClosed.above {tree : FileTree} (hclosed : tree.IsClosed) {location : Location}
    {names : List Text} (h : tree.node? (location ++ names) ≠ none) : tree.node? location ≠ none := by
  induction names using List.reverseRecOn with
  | nil =>
      rw [List.append_nil] at h
      exact h
  | append_singleton names last ih =>
      rw [← List.append_assoc] at h
      refine ih ?_
      rw [hclosed _ _ h]
      simp

/-- In a closed tree what stands somewhere is reached by the names that spell its location. -/
theorem IsClosed.locate {tree : FileTree} (hclosed : tree.IsClosed) {names : List Text}
    (hup : upName ∉ names) {location : Location}
    (h : tree.node? (location ++ names) ≠ none) :
    names.foldlM tree.enter location = .ok (location ++ names) := by
  induction names generalizing location with
  | nil =>
      rw [List.append_nil]
      rfl
  | cons name names ih =>
      have hname : name ≠ upName := fun heq ↦ hup (by rw [heq]; exact List.mem_cons_self ..)
      have hmoved : location ++ name :: names = location ++ [name] ++ names := by simp
      rw [hmoved] at h ⊢
      have hlocation : tree.node? location = some .directory :=
        hclosed _ _ (hclosed.above h)
      have henter : tree.enter location name = .ok (location ++ [name]) :=
        enter_eq.mpr ⟨hlocation, by rw [if_neg hname]⟩
      rw [List.foldlM_cons, henter]
      exact ih (fun hmem ↦ hup (List.mem_cons_of_mem _ hmem)) h

end FileTree

end LocalizedSite
