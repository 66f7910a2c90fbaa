import LocalizedSite.Proofs.Dictionary.Store
import LocalizedSite.Proofs.Files.Closed

/-!
# Reading dictionaries from their files

The dictionary that a file holds, if there is one (`dictionary?`), and what comes of reading the
dictionaries of several locales one after another. A file that holds bytes that are no text stops the
reading (`snapshot_stops`), and any other file counts for its own locale alone (`snapshot_spec`).
-/

namespace LocalizedSite.Store

open FileTree

/-- The dictionary that a locale's file holds, if it is there and is a JSON object. -/
def dictionary? (store : Store) (tree : FileTree) (code : Text) : Option Dictionary :=
  match tree.readText (store.path code) with
  | .error _ => none
  | .ok text =>
    match Json.parse text with
    | .ok (.object members) => some members
    | _ => none

/-- A locale's file, if it is there, is a text. -/
def HoldsText (store : Store) (tree : FileTree) (code : Text) : Prop :=
  ∀ bytes, tree.content (store.path code) ≠ .ok (.bytes bytes)

instance (store : Store) (tree : FileTree) (code : Text) : Decidable (store.HoldsText tree code) :=
  match h : tree.content (store.path code) with
  | .ok (.bytes held) => isFalse fun hholds ↦ hholds held h
  | .ok (.text _) => isTrue fun _ ↦ by simp [h]
  | .error _ => isTrue fun _ ↦ by simp [h]

variable {store : Store} {tree : FileTree} {code : Text}

/-- A file with a dictionary is there and is a text. -/
theorem file_of_dictionary {dictionary : Dictionary}
    (h : store.dictionary? tree code = some dictionary) :
    store.hasFile tree code = true ∧ store.HoldsText tree code := by
  unfold dictionary? at h
  cases hread : tree.readText (store.path code) with
  | error error =>
      rw [hread] at h
      exact absurd h (by simp)
  | ok text =>
      refine ⟨is_file_of_read_text hread, fun bytes hbytes ↦ ?_⟩
      simp [readText, hbytes, bind, Except.bind] at hread

/-- A file that is not there has no dictionary, and no bytes that are no text. -/
theorem dictionary_of_no_file (h : store.hasFile tree code = false) :
    store.dictionary? tree code = none ∧ store.HoldsText tree code := by
  constructor
  · by_contra hsome
    obtain ⟨dictionary, hdictionary⟩ := Option.ne_none_iff_exists'.mp hsome
    exact absurd ((file_of_dictionary hdictionary).1.symm.trans h) (by simp)
  · intro bytes hbytes
    have hfile : store.hasFile tree code = true := is_file_iff.mpr ⟨_, hbytes⟩
    exact absurd (hfile.symm.trans h) (by simp)

/-- What comes of reading a dictionary whose file is there. -/
theorem read_cases (hfile : store.hasFile tree code = true) :
    (∃ dictionary, store.read tree code = .ok dictionary ∧
        store.dictionary? tree code = some dictionary) ∨
      (∃ fault, store.read tree code = .error fault ∧ fault.message?.isSome = true ∧
        store.dictionary? tree code = none ∧ store.HoldsText tree code) ∨
      store.read tree code = .error (.file .notText) ∧ ¬ store.HoldsText tree code := by
  obtain ⟨content, hcontent⟩ := is_file_iff.mp hfile
  have hheld : tree.isFile (store.path code) = true := hfile
  -- Bytes that are no text stop the reading, and a text gives a dictionary or a message.
  cases content with
  | bytes bytes =>
      have hread : tree.readText (store.path code) = .error .notText := by
        simp only [readText, hcontent, bind, Except.bind]
      refine .inr (.inr ⟨?_, fun htext ↦ htext bytes hcontent⟩)
      unfold Store.read
      simp only [hheld, if_true, hread]
  | text text =>
      have hread : tree.readText (store.path code) = .ok (lineFeeds text) := by
        simp only [readText, hcontent, bind, Except.bind]
      have htext : store.HoldsText tree code := fun bytes hbytes ↦
        absurd (Except.ok.inj (hcontent.symm.trans hbytes)) (by simp)
      unfold Store.read dictionary?
      simp only [hheld, if_true, hread]
      cases Json.parse (lineFeeds text) with
      | error fault => exact .inr (.inl ⟨_, rfl, rfl, rfl, htext⟩)
      | ok value =>
          cases value with
          | object members => exact .inl ⟨members, rfl, rfl⟩
          | _ => exact .inr (.inl ⟨_, rfl, rfl, rfl, htext⟩)

/-- What a store keeps is what the files hold. -/
def Faithful (store : Store) (tree : FileTree) : Prop :=
  ∀ code dictionary, Entries.get? store.cache code = some dictionary →
    store.dictionary? tree code = some dictionary

/-- What comes of loading a dictionary whose file is there, if the store is faithful. -/
theorem load_cases (hfaithful : store.Faithful tree) (hfile : store.hasFile tree code = true) :
    (∃ dictionary next, store.load tree code = .ok (dictionary, next) ∧
        store.dictionary? tree code = some dictionary ∧ next.directory = store.directory ∧
        next.Faithful tree) ∨
      (∃ fault, store.load tree code = .error fault ∧ fault.message?.isSome = true ∧
        store.dictionary? tree code = none ∧ store.HoldsText tree code) ∨
      store.load tree code = .error (.file .notText) ∧ ¬ store.HoldsText tree code := by
  unfold load
  cases hkept : Entries.get? store.cache code with
  | some dictionary => exact .inl ⟨dictionary, store, rfl, hfaithful code dictionary hkept, rfl, hfaithful⟩
  | none =>
      rcases read_cases hfile with ⟨dictionary, hread, hheld⟩ | ⟨fault, hread, hfault⟩ | ⟨hread, hbytes⟩
      · refine .inl ⟨dictionary, store.keep code dictionary, by rw [hread]; rfl, hheld, rfl, ?_⟩
        intro other found hfound
        rw [keep, Entries.get_put] at hfound
        split at hfound
        · next hsame =>
            obtain rfl := Option.some.inj hfound
            rw [hsame]
            exact hheld
        · exact hfaithful other found hfound
      · exact .inr (.inl ⟨fault, by rw [hread]; rfl, hfault⟩)
      · exact .inr (.inr ⟨by rw [hread]; rfl, hbytes⟩)

/-- Stores with one directory find the same dictionaries. -/
theorem dictionary_congr {other : Store} (h : other.directory = store.directory) :
    other.dictionary? tree code = store.dictionary? tree code ∧
      (other.HoldsText tree code ↔ store.HoldsText tree code) := by
  have hpath : other.path code = store.path code := by
    unfold path
    rw [h]
  unfold dictionary? HoldsText
  rw [hpath]
  exact ⟨rfl, .rfl⟩

/-- If every file is a text, each locale whose file holds a dictionary gets it. -/
theorem snapshot_from_spec (hfaithful : store.Faithful tree) {codes : List Text}
    (htexts : ∀ code ∈ codes, store.HoldsText tree code) (found : Entries Dictionary) :
    ∃ after, (snapshotFrom tree store found codes).1 = .ok after ∧
      ∀ code, Entries.get? after code =
        if code ∈ codes then (store.dictionary? tree code).or (Entries.get? found code)
        else Entries.get? found code := by
  induction codes generalizing store found with
  | nil => exact ⟨found, rfl, fun code ↦ rfl⟩
  | cons first others ih =>
      have hothers {next : Store} (hdirectory : next.directory = store.directory) :
          ∀ code ∈ others, next.HoldsText tree code := fun code hmem ↦
        (dictionary_congr hdirectory).2.mpr (htexts code (List.mem_cons_of_mem _ hmem))
      -- without a dictionary of the first locale it is as if the others had been asked for alone
      have hskip (hnone : store.dictionary? tree first = none) : ∃ after,
          (snapshotFrom tree store found others).1 = .ok after ∧ ∀ code, Entries.get? after code =
            if code ∈ first :: others then (store.dictionary? tree code).or (Entries.get? found code)
            else Entries.get? found code := by
        obtain ⟨after, hafter, hget⟩ := ih hfaithful (hothers rfl) found
        refine ⟨after, hafter, fun code ↦ ?_⟩
        rw [hget]
        by_cases hfirst : code = first
        · rw [hfirst, hnone]
          simp
        · simp [hfirst]
      unfold snapshotFrom
      by_cases hfile : store.hasFile tree first = true
      · rw [if_pos hfile]
        rcases load_cases hfaithful hfile with ⟨dictionary, next, hload, hheld, hdirectory, hnext⟩ |
          ⟨fault, hload, hmessage, hnone, -⟩ | ⟨-, hbytes⟩
        · obtain ⟨after, hafter, hget⟩ :=
            ih hnext (hothers hdirectory) (Entries.put found first dictionary)
          refine ⟨after, by rw [hload]; exact hafter, fun code ↦ ?_⟩
          rw [hget, (dictionary_congr hdirectory).1, Entries.get_put]
          by_cases hfirst : code = first
          · rw [hfirst, hheld]
            simp
          · simp [hfirst]
        · rw [hload]
          simp only [hmessage, if_true]
          exact hskip hnone
        · exact absurd (htexts first (List.mem_cons_self ..)) hbytes
      · rw [if_neg hfile]
        exact hskip (dictionary_of_no_file (Bool.eq_false_iff.mpr hfile)).1

/-- If some file is no text, the reading stops, and no locale gets a dictionary. -/
theorem snapshot_from_stops (hfaithful : store.Faithful tree) {codes : List Text}
    (hbytes : ∃ code ∈ codes, ¬ store.HoldsText tree code) (found : Entries Dictionary) :
    (snapshotFrom tree store found codes).1 = .error (.file .notText) := by
  induction codes generalizing store found with
  | nil =>
      obtain ⟨code, hmem, -⟩ := hbytes
      exact absurd hmem List.not_mem_nil
  | cons first others ih =>
      have hothers {next : Store} (hdirectory : next.directory = store.directory)
          (hfirst : store.HoldsText tree first) : ∃ code ∈ others, ¬ next.HoldsText tree code := by
        obtain ⟨code, hmem, hcode⟩ := hbytes
        rcases List.mem_cons.mp hmem with rfl | hmem
        · exact absurd hfirst hcode
        · exact ⟨code, hmem, fun htext ↦ hcode ((dictionary_congr hdirectory).2.mp htext)⟩
      unfold snapshotFrom
      by_cases hfile : store.hasFile tree first = true
      · rw [if_pos hfile]
        rcases load_cases hfaithful hfile with ⟨dictionary, next, hload, hheld, hdirectory, hnext⟩ |
          ⟨fault, hload, hmessage, -, htext⟩ | ⟨hload, -⟩
        · rw [hload]
          exact ih hnext (hothers hdirectory (file_of_dictionary hheld).2) _
        · rw [hload]
          simp only [hmessage, if_true]
          exact ih hfaithful (hothers rfl htext) found
        · rw [hload]
          rfl
      · rw [if_neg hfile]
        exact ih hfaithful (hothers rfl (dictionary_of_no_file (Bool.eq_false_iff.mpr hfile)).2) found

/-- A store that keeps nothing is faithful. -/
theorem faithful_of_empty (store : Store) (tree : FileTree) :
    ({ store with cache := [] } : Store).Faithful tree :=
  fun _ _ hkept ↦ absurd hkept (by simp [Entries.get?])

/-- A snapshot has the dictionary of each locale whose file holds one, if every file is a text. -/
theorem snapshot_spec {codes : List Text} (htexts : ∀ code ∈ codes, store.HoldsText tree code) :
    ∃ found, (store.snapshot tree codes).1 = .ok found ∧
      ∀ code ∈ codes, Entries.get? found code = store.dictionary? tree code := by
  obtain ⟨found, hfound, hget⟩ := snapshot_from_spec (faithful_of_empty store tree) htexts []
  refine ⟨found, hfound, fun code hmem ↦ ?_⟩
  rw [hget, if_pos hmem]
  exact Option.or_none ..

/-- A snapshot is not had if some file is no text. -/
theorem snapshot_stops {codes : List Text} (hbytes : ∃ code ∈ codes, ¬ store.HoldsText tree code) :
    (store.snapshot tree codes).1 = .error (.file .notText) :=
  snapshot_from_stops (faithful_of_empty store tree) hbytes []

end LocalizedSite.Store
