import LocalizedSite.Proofs.Files.Copying

/-!
# Texts written one after another

When some texts have been written, each with the directory in which it stands, every place has the last
text that was written there, and the files at other places are as they were (`Written.file_iff`). Writing
the same texts once more makes no directories and leaves everything else as it is (`Written.again`), if
nothing was lost in between.
-/

namespace LocalizedSite

namespace FileTree

variable {before between after next : FileTree} {path : FilePath} {content : Content}
  {writes : List (FilePath × Text)} {places : Location → Prop}

/-- Some texts are written under their paths, one after another. -/
inductive Written : FileTree → List (FilePath × Text) → FileTree → Prop
  | none (tree : FileTree) : Written tree [] tree
  | more {before between after : FileTree} {path : FilePath} {text : Text}
      {others : List (FilePath × Text)}
      (hfirst : before.writeMaking path (.text text) = .ok between)
      (hothers : Written between others after) : Written before ((path, text) :: others) after

/-- The last of some texts that is written at a place. -/
def lastText? (workingDirectory : Location) (writes : List (FilePath × Text)) (place : Location) :
    Option Text :=
  (writes.reverse.find? fun write ↦ write.1.spelt workingDirectory = place).map Prod.snd

/-- What stands at a place after some texts were written, apart from directories that were made: the last
text of the place, or what stood there. -/
def nodeAfter? (before : FileTree) (writes : List (FilePath × Text)) (place : Location) :
    Option FileNode :=
  match lastText? before.workingDirectory writes place with
  | some text => some (.file (.text text))
  | none => before.node? place

/-- The first of some texts counts at a place if none of the others is written there. -/
theorem last_text_cons (workingDirectory : Location) (path : FilePath) (text : Text)
    (others : List (FilePath × Text)) (place : Location) :
    lastText? workingDirectory ((path, text) :: others) place =
      (lastText? workingDirectory others place).or
        (if path.spelt workingDirectory = place then some text else none) := by
  unfold lastText?
  rw [List.reverse_cons, List.find?_append, Option.map_or, List.find?_singleton]
  by_cases h : path.spelt workingDirectory = place <;> simp [h]

/-- No text is written at a place to which no path leads. -/
theorem last_text_none {workingDirectory place : Location}
    (h : ∀ write ∈ writes, write.1.spelt workingDirectory ≠ place) :
    lastText? workingDirectory writes place = none := by
  unfold lastText?
  rw [List.find?_eq_none.mpr fun write hmem ↦ by simpa using h write (List.mem_reverse.mp hmem)]
  rfl

/-- A text that was written stands where its path says. -/
theorem node_spelt_of_write_making (h : before.writeMaking path content = .ok after) :
    after.node? (path.spelt before.workingDirectory) = some (.file content) := by
  obtain ⟨place, hlocate, hplace⟩ := node_of_write_making h
  rw [← (grows_of_write_making h).workingDirectory, ← locate_eq_spelt hlocate]
  exact hplace

namespace Written

/-- Nothing is lost when texts are written. -/
theorem lasts (h : Written before writes after) : Lasts before after := by
  induction h with
  | none tree => exact .refl tree
  | more hfirst _ ih => exact (lasts_of_write_making hfirst).trans ih

/-- The same texts leave the same files. -/
theorem unique (h : Written before writes after) (hother : Written before writes next) :
    after = next := by
  induction h with
  | none tree =>
      cases hother
      rfl
  | more hfirst _ ih =>
      cases hother with
      | more hsame hothers =>
          rw [hfirst] at hsame
          obtain rfl := Except.ok.inj hsame
          exact ih hothers

/-- Every place has the last text that was written there, and other files are as they were. -/
theorem file_iff (h : Written before writes after) (place : Location) (content : Content) :
    after.node? place = some (.file content) ↔
      nodeAfter? before writes place = some (.file content) := by
  induction h with
  | none tree => rfl
  | @more before between after path text others hfirst _ ih =>
      have hgrows := grows_of_write_making hfirst
      rw [ih]
      unfold nodeAfter?
      rw [hgrows.workingDirectory, last_text_cons]
      cases lastText? before.workingDirectory others place with
      | some last => rfl
      | none =>
          by_cases heq : path.spelt before.workingDirectory = place
          · rw [if_pos heq, ← heq, node_spelt_of_write_making hfirst]
            rfl
          · obtain ⟨location, hlocate, -⟩ := node_of_write_making hfirst
            have hne : place ≠ location := by
              rintro rfl
              exact heq (hgrows.workingDirectory ▸ locate_eq_spelt hlocate).symm
            rw [if_neg heq]
            exact file_elsewhere hfirst hlocate hne content

/-- Where a text was written a file stands. -/
theorem file_of_mem (h : Written before writes after) {write : FilePath × Text} (hmem : write ∈ writes) :
    ∃ place held, after.locate write.1 = .ok place ∧ after.node? place = some (.file held) := by
  induction h with
  | none tree => exact absurd hmem List.not_mem_nil
  | more hfirst hothers ih =>
      rcases List.mem_cons.mp hmem with rfl | hlater
      · obtain ⟨place, hlocate, hplace⟩ := node_of_write_making hfirst
        obtain ⟨held, hheld⟩ := hothers.lasts.files place _ hplace
        exact ⟨place, held, locate_of_grows hothers.lasts.grows hlocate, hheld⟩
      · exact ih hlater

end Written

section There

/-- Where a file was written it can be written again, and that makes no directories. -/
theorem write_making_there (h : before.writeMaking path content = .ok after) (hlasts : Lasts after next)
    (other : Content) : (∃ held, next.node? (path.spelt next.workingDirectory) = some (.file held)) ∧
      next.writeMaking path other =
        .ok (next.setNode (path.spelt next.workingDirectory) (.file other)) := by
  obtain ⟨made, location, hmade, -, hgrows, hlocate, -, -⟩ := write_making_spec h
  obtain ⟨-, final, hleads⟩ := leads_of_make_directories hmade
  have hgrown := hgrows.trans hlasts.grows
  have hnext := locate_of_grows hgrown hlocate
  have hplace : after.node? location = some (.file content) := by
    have hspelt := node_spelt_of_write_making h
    rwa [← (grows_of_write_making h).workingDirectory,
      ← locate_eq_spelt (locate_of_grows hgrows hlocate)] at hspelt
  obtain ⟨held, hheld⟩ := hlasts.files location content hplace
  have hthere : next.makeDirectories path.parent = .ok next := by
    have hstart : next.startOf path.parent = made.startOf path.parent := by
      unfold startOf
      rw [hgrown.workingDirectory]
    have hleadsNext : next.Leads (next.startOf path.parent) path.parent.parts final := by
      rw [hstart]
      exact hleads.of_grows hgrown
    exact make_directories_there hleadsNext
  have hfile : next.node? location ≠ some .directory := by
    rw [hheld]
    simp
  rw [← locate_eq_spelt hnext]
  refine ⟨⟨held, hheld⟩, bind_eq_ok.mpr ⟨next, hthere, ?_⟩⟩
  exact write_eq.mpr ⟨location, hnext, hfile, rfl⟩

/-- A tree agrees with itself. -/
theorem AgreeOutside.refl (tree : FileTree) : AgreeOutside places tree tree :=
  ⟨rfl, fun _ ↦ .rfl, fun _ _ ↦ rfl⟩

/-- Agreement outside some places is agreement outside more of them. -/
theorem AgreeOutside.mono {others : Location → Prop} (h : AgreeOutside places before after)
    (hmore : ∀ location, places location → others location) : AgreeOutside others before after :=
  ⟨h.workingDirectory, h.directories, fun location hother ↦
    h.outside location fun hplace ↦ hother (hmore location hplace)⟩

/-- Agreement goes on. -/
theorem AgreeOutside.trans (h : AgreeOutside places before between)
    (hnext : AgreeOutside places between after) : AgreeOutside places before after :=
  ⟨hnext.workingDirectory.trans h.workingDirectory,
    fun location ↦ (hnext.directories location).trans (h.directories location),
    fun location hplace ↦ (hnext.outside location hplace).trans (h.outside location hplace)⟩

/-- Texts that were written once are written again and leave the rest as it is. -/
theorem Written.again (h : Written before writes after) (hlasts : Lasts after next) :
    ∃ final, Written next writes final ∧ final.workingDirectory = next.workingDirectory ∧
      ∀ place, final.node? place = nodeAfter? next writes place := by
  induction h generalizing next with
  | none tree => exact ⟨next, .none next, rfl, fun _ ↦ rfl⟩
  | @more before between after path text others hfirst hothers ih =>
      obtain ⟨⟨held, hheld⟩, hwrite⟩ :=
        write_making_there hfirst (hothers.lasts.trans hlasts) (.text text)
      obtain ⟨final, hwritten, hdirectory, hnodes⟩ :=
        ih (hlasts.trans (lasts_of_write_making hwrite))
      refine ⟨final, .more hwrite hwritten, hdirectory, fun place ↦ ?_⟩
      have hstart : (next.setNode (path.spelt next.workingDirectory)
          (.file (.text text))).workingDirectory = next.workingDirectory := rfl
      rw [hnodes, nodeAfter?, nodeAfter?, hstart, last_text_cons,
        node_set_node next (ne_root hheld (by simp))]
      cases lastText? next.workingDirectory others place with
      | some last => rfl
      | none =>
          by_cases heq : path.spelt next.workingDirectory = place
          · rw [if_pos heq, if_pos heq.symm]
            rfl
          · rw [if_neg heq, if_neg (Ne.symm heq)]
            rfl

/-- If texts and then one more file are written over what they left behind, nothing changes. -/
theorem alike_of_written_again {current final : FileTree} (hwritten : Written before writes current)
    (hwrite : current.writeMaking path content = .ok after) (hlasts : Lasts after final)
    (hnodes : ∀ place, final.node? place = nodeAfter? after writes place) :
    Alike after (final.setNode (path.spelt final.workingDirectory) (.file content)) := by
  obtain ⟨⟨held, hheld⟩, -⟩ := write_making_there hwrite hlasts content
  obtain ⟨location, hlocate, hplace⟩ := node_of_write_making hwrite
  have hstart : after.workingDirectory = before.workingDirectory :=
    (grows_of_write_making hwrite).workingDirectory.trans hwritten.lasts.grows.workingDirectory
  refine ⟨hlasts.grows.workingDirectory, fun place ↦ ?_⟩
  rw [node_set_node final (ne_root hheld (by simp)),
    ← locate_eq_spelt (locate_of_grows hlasts.grows hlocate)]
  by_cases heq : place = location
  · rw [if_pos heq, heq, hplace]
  · rw [if_neg heq, hnodes, nodeAfter?]
    cases hlast : lastText? after.workingDirectory writes place with
    | none => rfl
    | some text =>
        refine ((file_elsewhere hwrite hlocate heq (.text text)).mpr ?_).symm
        rw [hwritten.file_iff, nodeAfter?, ← hstart, hlast]

end There

end FileTree

end LocalizedSite
