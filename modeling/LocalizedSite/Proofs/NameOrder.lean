import LocalizedSite.Proofs.Entries

/-!
# The order of names

Entries that are added to others leave the names that were there in their order and come behind them
in their own, each name where it stands first (`names_put_all`, `names_put_all_new`). So the names of
entries are a list without its repetitions, and two lists of entries are the same if they have the same
names in the same order and the same value under each (`eq_of_names`).
-/

namespace LocalizedSite

namespace Entries

variable {α β : Type}

section Repetitions

variable {names others : List Text}

/-- Leaving names out and leaving repetitions out may change places. -/
theorem filter_erase_dups (keeps : Text → Bool) (names : List Text) :
    (names.filter keeps).eraseDups = names.eraseDups.filter keeps := by
  match names with
  | [] => rfl
  | name :: names =>
      have hshorter : (names.filter fun other ↦ !other == name).length < names.length + 1 :=
        Nat.lt_succ_of_le (List.length_filter_le ..)
      have hrest := filter_erase_dups keeps (names.filter fun other ↦ !other == name)
      rw [List.eraseDups_cons, List.filter_cons, List.filter_cons, ← hrest]
      split
      · rw [List.eraseDups_cons, List.filter_filter, List.filter_filter]
        simp only [Bool.and_comm]
      · next hleft =>
          -- a name that is left out takes its repetitions with it
          rw [List.filter_filter]
          congr 1
          refine List.filter_congr fun other _ ↦ ?_
          by_cases heq : other = name
          · simp [heq, hleft]
          · simp [heq]
termination_by names.length

/-- Without repetitions the names differ. -/
theorem erase_dups_nodup (names : List Text) : names.eraseDups.Nodup := by
  match names with
  | [] => exact List.nodup_nil
  | name :: names =>
      have hshorter : (names.filter fun other ↦ !other == name).length < names.length + 1 :=
        Nat.lt_succ_of_le (List.length_filter_le ..)
      rw [List.eraseDups_cons]
      refine List.nodup_cons.mpr ⟨?_, erase_dups_nodup _⟩
      simp
termination_by names.length

/-- Names that differ have no repetitions. -/
theorem erase_dups_eq (h : names.Nodup) : names.eraseDups = names := by
  induction names with
  | nil => rfl
  | cons name names ih =>
      obtain ⟨hnew, hrest⟩ := List.nodup_cons.mp h
      have hkept : names.filter (fun other ↦ !other == name) = names := by
        refine List.filter_eq_self.mpr fun other hother ↦ ?_
        simpa using fun heq : other = name ↦ hnew (heq ▸ hother)
      rw [List.eraseDups_cons, hkept, ih hrest]

/-- Repetitions at the end may be left out first. -/
theorem erase_dups_append_right (names others : List Text) :
    (names ++ others.eraseDups).eraseDups = (names ++ others).eraseDups := by
  have hrest : (others.eraseDups.removeAll names).eraseDups = (others.removeAll names).eraseDups := by
    unfold List.removeAll
    rw [filter_erase_dups, filter_erase_dups, erase_dups_eq (erase_dups_nodup others)]
  rw [List.eraseDups_append, hrest, ← List.eraseDups_append]

/-- Repetitions at the beginning may be left out first. -/
theorem erase_dups_append_left (names others : List Text) :
    (names.eraseDups ++ others).eraseDups = (names ++ others).eraseDups := by
  have hrest : others.removeAll names.eraseDups = others.removeAll names := by
    unfold List.removeAll
    exact List.filter_congr fun other _ ↦ by simp
  rw [List.eraseDups_append, hrest, erase_dups_eq (erase_dups_nodup names), ← List.eraseDups_append]

/-- Of names behind others, those may be left out that are among the others. -/
theorem erase_dups_append_filter {keeps : Text → Bool}
    (h : ∀ name ∈ others, name ∉ names → keeps name = true) :
    (names ++ others.filter keeps).eraseDups = (names ++ others).eraseDups := by
  have hrest : (others.filter keeps).removeAll names = others.removeAll names := by
    unfold List.removeAll
    rw [List.filter_filter]
    refine List.filter_congr fun other hother ↦ ?_
    by_cases hmem : other ∈ names
    · simp [hmem]
    · simp [h other hother hmem]
  rw [List.eraseDups_append, hrest, ← List.eraseDups_append]

/-- Names that are there already add nothing. -/
theorem erase_dups_append_of_subset (h : ∀ name ∈ others, name ∈ names) :
    (names ++ others).eraseDups = names.eraseDups := by
  have hnone : others.filter (fun _ ↦ false) = [] := List.filter_eq_nil_iff.mpr (by simp)
  have hleft : ∀ name ∈ others, name ∉ names → (fun _ : Text ↦ false) name = true :=
    fun name hname hnew ↦ absurd (h name hname) hnew
  rw [← erase_dups_append_filter hleft, hnone, List.append_nil]

/-- Names that differ, behind others: those of them that are new. -/
theorem erase_dups_append_nodup (h : others.Nodup) :
    (names ++ others).eraseDups = names.eraseDups ++ others.filter fun name ↦ !names.contains name := by
  have hleft : (others.removeAll names).Nodup := h.filter _
  rw [List.eraseDups_append, erase_dups_eq hleft]
  rfl

/-- Names that are known to stand in front may be left out before others are added behind. -/
theorem erase_dups_behind {front first added : List Text} {keeps : Text → Bool}
    (hfirst : ∀ name ∈ first, name ∈ front) (hkeeps : ∀ name, name ∉ front → keeps name = true) :
    (front ++ ((first ++ names).eraseDups.filter keeps ++ added).eraseDups).eraseDups =
      (front ++ (names ++ added).eraseDups).eraseDups := by
  have hnames : (front ++ (first ++ names).eraseDups.filter keeps).eraseDups =
      (front ++ names).eraseDups := by
    rw [erase_dups_append_filter fun name _ hnew ↦ hkeeps name hnew, erase_dups_append_right,
      ← List.append_assoc, ← erase_dups_append_left (front ++ first),
      erase_dups_append_of_subset hfirst, erase_dups_append_left]
  calc (front ++ ((first ++ names).eraseDups.filter keeps ++ added).eraseDups).eraseDups
      = ((front ++ (first ++ names).eraseDups.filter keeps).eraseDups ++ added).eraseDups := by
        rw [erase_dups_append_right, erase_dups_append_left, List.append_assoc]
    _ = ((front ++ names) ++ added).eraseDups := by rw [hnames, erase_dups_append_left]
    _ = (front ++ (names ++ added).eraseDups).eraseDups := by
        rw [erase_dups_append_right, List.append_assoc]

/-- Names that are added once more, behind some of the names that are there, change nothing. -/
theorem erase_dups_again {first added : List Text} {keeps : Text → Bool}
    (hkeeps : ∀ name, name ∉ first → keeps name = true)
    (hadded : ∀ name ∈ added, name ∈ names) :
    (first ++ ((first ++ names).eraseDups.filter keeps ++ added).eraseDups).eraseDups =
      (first ++ names).eraseDups := by
  rw [erase_dups_behind (fun _ hmem ↦ hmem) hkeeps, erase_dups_append_of_subset hadded,
    erase_dups_append_right]

end Repetitions

variable {entries added : Entries α}

/-- A name is present exactly if it has a value. -/
theorem has_iff {name : Text} : has entries name = true ↔ name ∈ entries.names := by
  rw [has, Option.isSome_iff_ne_none, ne_eq, get_eq_none_iff, not_not]

/-- Changing every value keeps the names. -/
@[simp]
theorem names_map_values (change : α → β) (entries : Entries α) :
    (mapValues change entries).names = entries.names := by
  simp [names, mapValues]

/-- Putting a value and changing every value may change places. -/
theorem map_values_put (change : α → β) (entries : Entries α) (name : Text) (value : α) :
    mapValues change (put entries name value) =
      put (mapValues change entries) name (change value) := by
  induction entries with
  | nil => rfl
  | cons entry entries ih =>
      obtain ⟨found, old⟩ := entry
      unfold mapValues at ih ⊢
      rw [put, List.map_cons, put]
      split
      · rfl
      · rw [List.map_cons, ih]

/-- Values are changed alike if each value that is found is. -/
theorem map_values_congr {change other : α → β} (h : entries.names.Nodup)
    (hsame : ∀ name value, get? entries name = some value → change value = other value) :
    mapValues change entries = mapValues other entries :=
  List.map_congr_left fun entry hentry ↦
    congrArg (Prod.mk entry.1) (hsame entry.1 entry.2 (get_of_mem h hentry))

/-- Entries behind others come with their names. -/
@[simp]
theorem names_append (entries added : Entries α) :
    names (entries ++ added) = entries.names ++ added.names :=
  List.map_append

/-- Putting the entries of two lists puts those of one after those of the other. -/
theorem put_all_append (entries : Entries α) (first second : List (Text × α)) :
    putAll entries (first ++ second) = putAll (putAll entries first) second :=
  List.foldl_append

/-- Putting adds the name at the end unless it is there. -/
theorem names_put (h : entries.names.Nodup) (name : Text) (value : α) :
    (put entries name value).names = (entries.names ++ [name]).eraseDups := by
  by_cases hmem : name ∈ entries.names
  · rw [names_put_present hmem, erase_dups_append_of_subset (by simpa using hmem), erase_dups_eq h]
  · have happend : (put entries name value).names = entries.names ++ [name] := by
      rw [put_absent hmem, names_append]
      rfl
    rw [← happend, erase_dups_eq (put_nodup h name value)]

/-- Adding a new name puts it, and an old one changes nothing. -/
theorem names_put_new (h : entries.names.Nodup) (name : Text) (value : α) :
    (putNew entries name value).names = (entries.names ++ [name]).eraseDups := by
  by_cases hmem : name ∈ entries.names
  · rw [putNew, if_pos (has_iff.mpr hmem), erase_dups_append_of_subset (by simpa using hmem),
      erase_dups_eq h]
  · rw [putNew, if_neg (mt has_iff.mp hmem), ← put_absent hmem value, names_put h]

/-- Putting entries adds their names. -/
theorem names_put_all (h : entries.names.Nodup) (added : List (Text × α)) :
    (putAll entries added).names = (entries.names ++ names added).eraseDups := by
  induction added generalizing entries with
  | nil =>
      have hnone : names ([] : List (Text × α)) = [] := rfl
      rw [hnone, List.append_nil, erase_dups_eq h]
      rfl
  | cons entry added ih =>
      have hstep : putAll entries (entry :: added) = putAll (put entries entry.1 entry.2) added := rfl
      rw [hstep, ih (put_nodup h _ _), names_put h, erase_dups_append_left, List.append_assoc]
      rfl

/-- Adding new entries adds their names. -/
theorem names_put_all_new (h : entries.names.Nodup) (added : List (Text × α)) :
    (putAllNew entries added).names = (entries.names ++ names added).eraseDups := by
  induction added generalizing entries with
  | nil =>
      have hnone : names ([] : List (Text × α)) = [] := rfl
      rw [hnone, List.append_nil, erase_dups_eq h]
      rfl
  | cons entry added ih =>
      have hstep : putAllNew entries (entry :: added) = putAllNew (putNew entries entry.1 entry.2) added :=
        rfl
      have hnodup : (putNew entries entry.1 entry.2).names.Nodup := by
        rw [names_put_new h]
        exact erase_dups_nodup _
      rw [hstep, ih hnodup, names_put_new h, erase_dups_append_left, List.append_assoc]
      rfl

/-- Entries are known from the order of their names and from the value under each. -/
theorem eq_of_names {first second : Entries α} (hnodup : first.names.Nodup)
    (hnames : first.names = second.names) (hget : ∀ name, get? first name = get? second name) :
    first = second := by
  induction first generalizing second with
  | nil => exact (List.map_eq_nil_iff.mp hnames.symm).symm
  | cons entry first ih =>
      cases second with
      | nil => exact absurd hnames (by simp [names])
      | cons other second =>
          obtain ⟨name, value⟩ := entry
          obtain ⟨_, result⟩ := other
          obtain ⟨hfirst, hrest⟩ := List.cons.inj hnames
          obtain rfl : name = _ := hfirst
          obtain ⟨hnew, hnodup⟩ := List.nodup_cons.mp hnodup
          have hvalue := hget name
          rw [get_cons, get_cons, if_pos rfl, if_pos rfl] at hvalue
          have habsent : name ∉ names second := by
            rw [names, ← hrest]
            exact hnew
          rw [Option.some.inj hvalue, ih hnodup hrest fun found ↦ ?_]
          by_cases heq : found = name
          · rw [heq, get_eq_none_iff.mpr hnew, get_eq_none_iff.mpr habsent]
          · have hfound := hget found
            rwa [get_cons, get_cons, if_neg heq, if_neg heq] at hfound

/-- The same entries in another order have the same values. -/
theorem get_of_perm {first second : Entries α} (h : first.Perm second) (hnodup : first.names.Nodup)
    (name : Text) : get? first name = get? second name := by
  have hsecond : second.names.Nodup := (h.map Prod.fst).nodup hnodup
  cases hget : get? first name with
  | some value => exact (get_of_mem hsecond (h.mem_iff.mp (mem_of_get hget))).symm
  | none =>
      have habsent : name ∉ second.names :=
        fun hmem ↦ get_eq_none_iff.mp hget ((h.map Prod.fst).mem_iff.mpr hmem)
      exact (get_eq_none_iff.mpr habsent).symm

end Entries

end LocalizedSite
