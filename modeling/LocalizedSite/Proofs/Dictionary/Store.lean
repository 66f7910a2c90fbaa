import LocalizedSite.Dictionary.Store
import LocalizedSite.Proofs.Files.Tree
import LocalizedSite.Proofs.Json.LineBreaks
import LocalizedSite.Proofs.Json.RoundTrip

/-!
# Dictionary files

A dictionary that was written is read back (`read_of_write_file`), and of several dictionaries
written one after another the last is left (`write_all_append`).
-/

namespace LocalizedSite.Store

variable {store : Store} {code : Text}

/-- A text without carriage returns is read as it is. -/
theorem line_feeds_eq {text : Text} (h : '\r' ∉ text) : FileTree.lineFeeds text = text := by
  unfold FileTree.lineFeeds
  rw [if_neg]
  intro hany
  obtain ⟨character, hmem, heq⟩ := List.any_eq_true.mp hany
  rw [beq_iff_eq.mp heq] at hmem
  exact h hmem

/-- The text of a dictionary file is read as it was written. -/
theorem read_text_of_write_file {tree after : FileTree} {dictionary : Dictionary}
    (hwell : Json.WellFormed (.object dictionary))
    (h : store.writeFile tree code dictionary = .ok after) :
    after.readText (store.path code) = .ok (fileText (.object dictionary)) := by
  have hreturn : '\r' ∉ fileText (.object dictionary) := by
    intro hmem
    rcases List.mem_append.mp hmem with hmem | hmem
    · exact Json.return_not_mem_dump hwell hmem
    · exact absurd hmem (by decide)
  have hcontent := FileTree.content_of_write_making h
  unfold FileTree.readText
  rw [hcontent]
  show Except.ok (FileTree.lineFeeds (fileText (.object dictionary))) = _
  rw [line_feeds_eq hreturn]

/-- A dictionary that was written is read back. -/
theorem read_of_write_file {tree after : FileTree} {dictionary : Dictionary}
    (hwell : Json.WellFormed (.object dictionary))
    (h : store.writeFile tree code dictionary = .ok after) :
    store.read after code = .ok dictionary := by
  unfold Store.read
  simp only [FileTree.is_file_of_write_making h, if_true, read_text_of_write_file hwell h,
    show Json.parse (fileText (.object dictionary)) = .ok (.object dictionary) from
      Json.parse_dump hwell]

/-- What is read is well-formed. -/
theorem read_well_formed {tree : FileTree} {dictionary : Dictionary}
    (h : store.read tree code = .ok dictionary) : Json.WellFormed (.object dictionary) := by
  unfold Store.read at h
  simp only at h
  split at h
  · split at h
    · exact absurd h (by simp)
    · split at h
      · exact absurd h (by simp)
      · next members hparse =>
          obtain rfl := Except.ok.inj h
          exact Json.parse_well_formed hparse
      · exact absurd h (by simp)
  · obtain rfl := Except.ok.inj h
    exact .object (by simp [Entries.names]) (by simp)

/-- Writing a dictionary again replaces it. -/
theorem write_file_again {tree after : FileTree} {dictionary : Dictionary}
    (h : store.writeFile tree code dictionary = .ok after) (other : Dictionary) :
    store.writeFile after code other = store.writeFile tree code other :=
  FileTree.write_making_again h _

/-- If one dictionary can be written, any other can be written as well. -/
theorem write_file_ok {tree after : FileTree} {dictionary : Dictionary}
    (h : store.writeFile tree code dictionary = .ok after) (other : Dictionary) :
    ∃ next, store.writeFile tree code other = .ok next := by
  cases hother : store.writeFile tree code other with
  | ok next => exact ⟨next, rfl⟩
  | error error =>
      have hnone : store.writeFile tree code dictionary = .error error :=
        FileTree.write_making_error hother _
      rw [h] at hnone
      exact absurd hnone (by simp)

/-- Several dictionaries that were written leave one of them, or there was none. -/
theorem write_all_cases {tree after : FileTree} {dictionaries : List Dictionary}
    (h : store.writeAll code tree dictionaries = .ok after) :
    after = tree ∨ ∃ dictionary ∈ dictionaries, store.writeFile tree code dictionary = .ok after := by
  induction dictionaries generalizing tree with
  | nil => exact .inl (Except.ok.inj h).symm
  | cons first others ih =>
      unfold writeAll at h
      split at h
      · next next hfirst =>
          rcases ih h with rfl | ⟨dictionary, hmem, hwrite⟩
          · exact .inr ⟨first, List.mem_cons_self .., hfirst⟩
          · rw [write_file_again hfirst] at hwrite
            exact .inr ⟨dictionary, List.mem_cons_of_mem _ hmem, hwrite⟩
      · exact absurd h (by simp)

/-- Of several dictionaries the last is left, or none of them could be written. -/
theorem write_all_append (tree : FileTree) (dictionaries : List Dictionary) (last : Dictionary) :
    store.writeAll code tree (dictionaries ++ [last]) =
      match store.writeFile tree code last with
      | .ok after => .ok after
      | .error error => .error (error, tree) := by
  induction dictionaries generalizing tree with
  | nil =>
      rw [List.nil_append, writeAll]
      cases store.writeFile tree code last with
      | error error => rfl
      | ok after => rfl
  | cons first others ih =>
      rw [List.cons_append, writeAll]
      cases hfirst : store.writeFile tree code first with
      | error error =>
          have hlast : store.writeFile tree code last = .error error :=
            FileTree.write_making_error hfirst _
          rw [hlast]
      | ok next =>
          simp only
          rw [ih, write_file_again hfirst]
          obtain ⟨after, hlast⟩ := write_file_ok hfirst last
          rw [hlast]

end LocalizedSite.Store
