import LocalizedSite.Dictionary.Store
import LocalizedSite.Proofs.Files.Written
import LocalizedSite.Proofs.Text.Lines

/-!
# Dictionary files that stand apart

Locales have files of their own if the paths of no two of them spell one place, and if a file that stands at
the place of a locale is found by the path of the locale (`HaveOwnFiles`). This lasts when dictionaries are
written, and what is read for one locale is left alone by writing another (`HaveOwnFiles.read_elsewhere`).

Locales whose codes are plain names have files of their own in a directory that is there or does not lead
back (`have_own_files_of_plain`), so writing the dictionary of one leaves the source's as it is
(`apart_of_plain`). A directory that is not there yet must not lead back, since making it could otherwise open
a way to a file that no path led to before.
-/

namespace LocalizedSite.Store

open FileTree

/-- The file of a locale is another one than the source's: writing it leaves the source's dictionary
as it is. -/
def Apart (store : Store) (tree : FileTree) (code : Text) : Prop :=
  ∀ dictionary after, store.writeFile tree code dictionary = .ok after →
    store.read after store.sourceCode = store.read tree store.sourceCode

/-- The name of a locale's dictionary file. -/
def fileName (code : Text) : Text :=
  code ++ ".json".toList

/-- A text without slashes is a path of one name, if this leads anywhere. -/
theorem of_text_name {name : Text} (h : '/' ∉ name) (hidle : FilePath.isIdle name = false) :
    FilePath.ofText name = ⟨[], [name]⟩ := by
  have hroot : FilePath.rootOf name = [] := by
    unfold FilePath.rootOf
    cases name with
    | nil => rfl
    | cons first others =>
        have hfirst : first ≠ '/' := fun heq ↦ h (by rw [heq]; exact List.mem_cons_self ..)
        rw [List.takeWhile_cons_of_neg (by simpa using hfirst)]
        rfl
  unfold FilePath.ofText
  rw [hroot, Text.split_at_of_not_mem h, List.filter_singleton, hidle]
  rfl

/-- The name of a dictionary file is a name of its own. -/
theorem file_name_spec (code : Text) :
    FilePath.isIdle (fileName code) = false ∧ fileName code ≠ upName := by
  have hlength : 5 ≤ (fileName code).length := by
    unfold fileName
    rw [List.length_append]
    exact Nat.le_add_left 5 _
  have hne {name : Text} (hname : name.length < 5) : fileName code ≠ name := by
    intro heq
    rw [heq] at hlength
    exact absurd hname (Nat.not_lt.mpr hlength)
  have hempty := hne (show ([] : Text).length < 5 by decide)
  have hpoint := hne (show (['.'] : Text).length < 5 by decide)
  refine ⟨?_, hne (show upName.length < 5 by decide)⟩
  unfold FilePath.isIdle
  rw [Bool.or_eq_false_iff]
  exact ⟨List.isEmpty_eq_false_iff.mpr hempty, beq_eq_false_iff_ne.mpr hpoint⟩

variable {store : Store} {tree : FileTree} {code : Text}

/-- The file of a dictionary stands in the directory of the store. -/
theorem path_eq (h : '/' ∉ code) :
    store.path code = ⟨store.directory.root, store.directory.parts ++ [fileName code]⟩ := by
  have hname : '/' ∉ fileName code := by
    intro hmem
    rcases List.mem_append.mp hmem with hmem | hmem
    · exact h hmem
    · exact absurd hmem (by decide)
  show store.directory.join (FilePath.ofText (fileName code)) = _
  rw [of_text_name hname (file_name_spec code).1]
  rfl

/-- The file of a dictionary stands under its name where the directory leads. -/
theorem locate_path (h : '/' ∉ code) {place : Location} :
    tree.locate (store.path code) = .ok place ↔ ∃ home,
      tree.locate store.directory = .ok home ∧ tree.node? home = some .directory ∧
        place = home ++ [fileName code] := by
  have hstart : tree.startOf (store.path code) = tree.startOf store.directory := by
    rw [path_eq h]
    rfl
  unfold locate
  rw [hstart, path_eq h, List.foldlM_append, bind_eq_ok]
  constructor
  · rintro ⟨home, hhome, hlast⟩
    rw [List.foldlM_cons] at hlast
    obtain ⟨next, henter, hnil⟩ := bind_eq_ok.mp hlast
    obtain rfl := Except.ok.inj hnil
    obtain ⟨hplace, hnext⟩ := enter_eq.mp henter
    rw [if_neg (file_name_spec code).2] at hnext
    exact ⟨home, hhome, hplace, hnext⟩
  · rintro ⟨home, hhome, hplace, rfl⟩
    refine ⟨home, hhome, ?_⟩
    rw [List.foldlM_cons]
    have henter : tree.enter home (fileName code) = .ok (home ++ [fileName code]) :=
      enter_eq.mpr ⟨hplace, by rw [if_neg (file_name_spec code).2]⟩
    rw [henter]
    rfl

/-- A dictionary that no file holds is empty. -/
theorem read_none (h : tree.isFile (store.path code) = false) : store.read tree code = .ok [] := by
  unfold Store.read
  simp only [h, Bool.false_eq_true, if_false]

/-- The place that the path of a locale's file spells. -/
def place (store : Store) (tree : FileTree) (code : Text) : Location :=
  (store.path code).spelt tree.workingDirectory

/-- The locales have different files, and each file at the place of a locale is found by its path. -/
structure HaveOwnFiles (store : Store) (tree : FileTree) (codes : List Text) : Prop where
  distinct : ∀ first ∈ codes, ∀ second ∈ codes,
    store.place tree first = store.place tree second → first = second
  found : ∀ code ∈ codes, ∀ content, tree.node? (store.place tree code) = some (.file content) →
    tree.locate (store.path code) = .ok (store.place tree code)

variable {after : FileTree} {codes : List Text} {other : Text} {dictionary : Dictionary}

/-- A dictionary is read alike in two trees in which its path leads to the same files. -/
theorem read_congr_content (h : ∀ content, after.content (store.path code) = .ok content ↔
    tree.content (store.path code) = .ok content) : store.read after code = store.read tree code := by
  by_cases hthere : tree.isFile (store.path code) = true
  · obtain ⟨content, hheld⟩ := is_file_iff.mp hthere
    have hlater := (h content).mpr hheld
    unfold Store.read
    simp only [hthere, is_file_iff.mpr ⟨content, hlater⟩, readText, hheld, hlater]
  · have hnone : ¬ after.isFile (store.path code) = true := by
      intro hafter
      obtain ⟨content, hheld⟩ := is_file_iff.mp hafter
      exact hthere (is_file_iff.mpr ⟨content, (h content).mp hheld⟩)
    rw [read_none (Bool.eq_false_iff.mpr hthere), read_none (Bool.eq_false_iff.mpr hnone)]

/-- A dictionary is read alike in two trees that have the same file for it. -/
theorem read_congr {place : Location} (hbefore : tree.locate (store.path code) = .ok place)
    (hafter : after.locate (store.path code) = .ok place)
    (hplace : after.node? place = tree.node? place) : store.read after code = store.read tree code :=
  read_congr_content fun content ↦ by
    simp only [FileTree.content, hbefore, hafter, hplace, bind, Except.bind]

/-- Places are spelt alike in trees with one working directory. -/
theorem place_congr (h : after.workingDirectory = tree.workingDirectory) (code : Text) :
    store.place after code = store.place tree code := by
  unfold place
  rw [h]

namespace HaveOwnFiles

/-- A locale's path leads to a file exactly if the file stands at the place that it spells. -/
theorem content_iff (h : store.HaveOwnFiles tree codes) (hcode : code ∈ codes) (content : Content) :
    tree.content (store.path code) = .ok content ↔
      tree.node? (store.place tree code) = some (.file content) := by
  rw [content_eq_ok]
  constructor
  · rintro ⟨place, hlocate, hplace⟩
    obtain rfl := locate_eq_spelt hlocate
    exact hplace
  · exact fun hplace ↦ ⟨_, h.found code hcode content hplace, hplace⟩

/-- Writing a dictionary leaves the files at the places of the other locales. -/
theorem file_elsewhere (h : store.HaveOwnFiles tree codes) (hcode : code ∈ codes) (hother : other ∈ codes)
    (hne : other ≠ code) (hwrite : store.writeFile tree code dictionary = .ok after)
    (content : Content) : after.node? (store.place tree other) = some (.file content) ↔
      tree.node? (store.place tree other) = some (.file content) := by
  obtain ⟨place, hlocate, -⟩ := node_of_write_making hwrite
  refine FileTree.file_elsewhere hwrite hlocate (fun hsame ↦ hne ?_) content
  obtain rfl := locate_eq_spelt hlocate
  rw [(grows_of_write_making hwrite).workingDirectory] at hsame
  exact h.distinct other hother code hcode hsame

/-- The locales still have files of their own when a dictionary was written. -/
theorem write (h : store.HaveOwnFiles tree codes) (hcode : code ∈ codes)
    (hwrite : store.writeFile tree code dictionary = .ok after) : store.HaveOwnFiles after codes := by
  have hgrows := grows_of_write_making hwrite
  have hplace (code : Text) : store.place after code = store.place tree code :=
    place_congr hgrows.workingDirectory code
  constructor
  · intro first hfirst second hsecond hsame
    rw [hplace, hplace] at hsame
    exact h.distinct first hfirst second hsecond hsame
  · intro other hother content hfile
    rw [hplace] at hfile ⊢
    by_cases hne : other = code
    · obtain ⟨place, hlocate, -⟩ := node_of_write_making hwrite
      rw [hne, hlocate, locate_eq_spelt hlocate, ← hplace]
      rfl
    · have hbefore := (h.file_elsewhere hcode hother hne hwrite content).mp hfile
      exact locate_of_grows hgrows (h.found other hother content hbefore)

/-- Writing a dictionary leaves those of the other locales. -/
theorem read_elsewhere (h : store.HaveOwnFiles tree codes) (hcode : code ∈ codes) (hother : other ∈ codes)
    (hne : other ≠ code) (hwrite : store.writeFile tree code dictionary = .ok after) :
    store.read after other = store.read tree other := by
  refine read_congr_content fun content ↦ ?_
  rw [(h.write hcode hwrite).content_iff hother, h.content_iff hother,
    place_congr (grows_of_write_making hwrite).workingDirectory]
  exact h.file_elsewhere hcode hother hne hwrite content

end HaveOwnFiles

/-- The file of a locale whose code is a plain name stands in the directory of the store. -/
theorem place_of_plain (h : '/' ∉ code) : store.place tree code =
    store.directory.spelt tree.workingDirectory ++ [fileName code] := by
  have hup : upName ∉ [fileName code] := by
    simpa using Ne.symm (file_name_spec code).2
  unfold place
  rw [path_eq h]
  exact spelt_below tree.workingDirectory store.directory hup

/-- Locales whose codes are plain names have files of their own, if the directory is there or does not lead
back. -/
theorem have_own_files_of_plain (hclosed : tree.IsClosed) (hplain : ∀ code ∈ codes, '/' ∉ code)
    (hdirectory : tree.isDirectory store.directory = true ∨ upName ∉ store.directory.parts) :
    store.HaveOwnFiles tree codes := by
  constructor
  · intro first hfirst second hsecond hsame
    rw [place_of_plain (hplain first hfirst), place_of_plain (hplain second hsecond)] at hsame
    have hnames := List.append_cancel_left hsame
    exact List.append_cancel_right (List.cons.inj hnames).1
  · intro code hcode content hfile
    rw [place_of_plain (hplain code hcode)] at hfile ⊢
    have hhome : tree.node? (store.directory.spelt tree.workingDirectory) = some .directory :=
      hclosed _ _ (by rw [hfile]; simp)
    refine (locate_path (hplain code hcode)).mpr ⟨_, ?_, hhome, rfl⟩
    rcases hdirectory with hthere | hup
    · unfold isDirectory at? at hthere
      split at hthere
      · next hfound =>
          split at hfound
          · next home hlocate => rw [hlocate, locate_eq_spelt hlocate]
          · exact absurd hfound (by simp)
      · exact absurd hthere (by simp)
    · unfold FilePath.spelt at hhome ⊢
      rw [foldl_along hup] at hhome ⊢
      exact hclosed.locate hup fun hnone ↦ absurd (hnone.symm.trans hhome) (by simp)

/-- Writing the dictionary of one locale leaves the source's as it is, if the codes are plain names and
the directory is there or does not lead back. -/
theorem apart_of_plain (hclosed : tree.IsClosed) (hplain : '/' ∉ code)
    (hsource : '/' ∉ store.sourceCode) (hcode : code ≠ store.sourceCode)
    (hdirectory : tree.isDirectory store.directory = true ∨ upName ∉ store.directory.parts) :
    store.Apart tree code := by
  intro dictionary after hwrite
  have hcodes : ∀ other ∈ [code, store.sourceCode], '/' ∉ other := by
    simpa using ⟨hplain, hsource⟩
  have hown := have_own_files_of_plain hclosed hcodes hdirectory
  exact hown.read_elsewhere (by simp) (by simp) (Ne.symm hcode) hwrite

end LocalizedSite.Store
