import LocalizedSite.Entries
import Mathlib.Data.List.Basic

/-!
# What entries hold

Looking up a name after each operation on entries. `get_put_all` says that the last of the values
put under a name counts, and `get_put_all_new` that the first of the values added counts.
-/

namespace LocalizedSite

namespace Entries

variable {α β : Type}

@[simp]
theorem get_nil (name : Text) : get? ([] : Entries α) name = none := rfl

/-- The first entry decides about its own name. -/
theorem get_cons (found name : Text) (value : α) (entries : Entries α) :
    get? ((found, value) :: entries) name =
      if name = found then some value else get? entries name := by
  by_cases h : name = found
  · simp [get?, h]
  · simp [get?, List.lookup_cons, beq_eq_false_iff_ne.mpr h, h]

/-- The first of two lists decides about the names it has. -/
theorem get_append (first second : Entries α) (name : Text) :
    get? (first ++ second) name = (get? first name).or (get? second name) := by
  simp [get?, List.lookup_append]

/-- The value of a name is one of the entries. -/
theorem mem_of_get {entries : Entries α} {name : Text} {value : α}
    (h : get? entries name = some value) : (name, value) ∈ entries := by
  induction entries with
  | nil => simp at h
  | cons entry entries ih =>
      obtain ⟨found, old⟩ := entry
      rw [get_cons] at h
      split at h
      · next heq =>
          obtain rfl := Option.some.inj h
          exact List.mem_cons.mpr (.inl (by rw [heq]))
      · exact List.mem_cons_of_mem _ (ih h)

/-- An entry is found under its name, if the names differ. -/
theorem get_of_mem {entries : Entries α} (h : entries.names.Nodup) {name : Text} {value : α}
    (hmem : (name, value) ∈ entries) : get? entries name = some value := by
  induction entries with
  | nil => exact absurd hmem List.not_mem_nil
  | cons entry entries ih =>
      obtain ⟨found, old⟩ := entry
      obtain ⟨hnew, hrest⟩ := List.nodup_cons.mp h
      rw [get_cons]
      rcases List.mem_cons.mp hmem with heq | hlater
      · obtain ⟨rfl, rfl⟩ := Prod.mk.inj heq
        rw [if_pos rfl]
      · have hne : name ≠ found := by
          rintro rfl
          exact hnew (List.mem_map.mpr ⟨_, hlater, rfl⟩)
        rw [if_neg hne]
        exact ih hrest hlater

/-- A name has a value exactly when it is one of the names. -/
theorem get_eq_none_iff {entries : Entries α} {name : Text} :
    get? entries name = none ↔ name ∉ entries.names := by
  induction entries with
  | nil => simp [names]
  | cons entry entries ih =>
      obtain ⟨found, old⟩ := entry
      rw [get_cons]
      by_cases h : name = found
      · simp [h, names]
      · simpa [h, names] using ih

/-- Putting changes the value of one name. -/
theorem get_put (entries : Entries α) (name other : Text) (value : α) :
    get? (put entries name value) other =
      if other = name then some value else get? entries other := by
  induction entries with
  | nil => simp [put, get_cons]
  | cons entry entries ih =>
      obtain ⟨found, old⟩ := entry
      simp only [put]
      split
      · next heq =>
          subst heq
          simp only [get_cons]
          split <;> rfl
      · next hne =>
          simp only [get_cons, ih]
          by_cases h : other = found
          · simp [h, hne]
          · simp [h]

/-- Adding gives a value only to a name that has none. -/
theorem get_put_new (entries : Entries α) (name other : Text) (value : α) :
    get? (putNew entries name value) other =
      (get? entries other).or (if other = name then some value else none) := by
  by_cases hhas : has entries name = true
  · rw [putNew, if_pos hhas]
    by_cases h : other = name
    · obtain ⟨old, hold⟩ := Option.isSome_iff_exists.mp hhas
      simp [h, hold]
    · simp [h]
  · rw [putNew, if_neg hhas, get_append, get_cons]
    simp

/-- Putting the value that a name has changes nothing. -/
theorem put_same {entries : Entries α} {name : Text} {value : α}
    (h : get? entries name = some value) : put entries name value = entries := by
  induction entries with
  | nil => exact absurd h (by simp)
  | cons entry entries ih =>
      obtain ⟨found, old⟩ := entry
      rw [get_cons] at h
      rw [put]
      by_cases heq : found = name
      · rw [if_pos heq.symm] at h
        rw [if_pos heq, Option.some.inj h]
      · rw [if_neg (Ne.symm heq)] at h
        rw [if_neg heq, ih h]

/-- The second of two values put under a name counts. -/
theorem put_put (entries : Entries α) (name : Text) (first second : α) :
    put (put entries name first) name second = put entries name second := by
  induction entries with
  | nil => simp [put]
  | cons entry entries ih =>
      obtain ⟨found, old⟩ := entry
      by_cases heq : found = name
      · simp [put, heq]
      · simp only [put, if_neg heq, ih]

/-- Putting adds a name that is absent at the end. -/
theorem put_absent {entries : Entries α} {name : Text} (h : name ∉ entries.names) (value : α) :
    put entries name value = entries ++ [(name, value)] := by
  induction entries with
  | nil => rfl
  | cons entry entries ih =>
      obtain ⟨found, old⟩ := entry
      have hne : found ≠ name := fun heq ↦ h (List.mem_cons.mpr (.inl heq.symm))
      have hrest : name ∉ names entries := fun hmem ↦ h (List.mem_cons_of_mem _ hmem)
      rw [put, if_neg hne, ih hrest]
      rfl

/-- Putting keeps the names if the name is present. -/
theorem names_put_present {entries : Entries α} {name : Text} (h : name ∈ entries.names)
    (value : α) : (put entries name value).names = entries.names := by
  induction entries with
  | nil => exact absurd h (by simp [names])
  | cons entry entries ih =>
      obtain ⟨found, old⟩ := entry
      rw [put]
      split
      · rfl
      · next hne =>
          have hrest : name ∈ names entries := by
            rcases List.mem_cons.mp h with heq | hmem
            · exact absurd heq.symm hne
            · exact hmem
          show found :: names (put entries name value) = found :: names entries
          rw [ih hrest]

/-- Putting keeps the names apart. -/
theorem put_nodup {entries : Entries α} (h : entries.names.Nodup) (name : Text) (value : α) :
    (put entries name value).names.Nodup := by
  by_cases hmem : name ∈ entries.names
  · rw [names_put_present hmem]
    exact h
  · rw [put_absent hmem]
    simp only [names, List.map_append, List.map_cons, List.map_nil]
    refine List.nodup_append.mpr ⟨h, by simp, ?_⟩
    rintro found hfound _ hsingle rfl
    rw [List.mem_singleton.mp hsingle] at hfound
    exact hmem hfound

/-- What is found after putting was there before or is what was put. -/
theorem mem_of_put {entries : Entries α} {name : Text} {value : α} {entry : Text × α}
    (h : entry ∈ put entries name value) : entry ∈ entries ∨ entry = (name, value) := by
  induction entries with
  | nil => exact .inr (List.mem_singleton.mp h)
  | cons first entries ih =>
      obtain ⟨found, old⟩ := first
      rw [put] at h
      split at h
      · next heq =>
          rcases List.mem_cons.mp h with rfl | hmem
          · exact .inr (by rw [heq])
          · exact .inl (List.mem_cons_of_mem _ hmem)
      · rcases List.mem_cons.mp h with rfl | hmem
        · exact .inl (List.mem_cons_self ..)
        · exact (ih hmem).imp_left (List.mem_cons_of_mem _)

/-- Putting all entries of a list keeps the names apart. -/
theorem put_all_nodup {entries : Entries α} (h : entries.names.Nodup) (added : List (Text × α)) :
    (putAll entries added).names.Nodup := by
  induction added generalizing entries with
  | nil => exact h
  | cons entry added ih => exact ih (put_nodup h entry.1 entry.2)

/-- What is found after putting all entries of a list was there before or is in the list. -/
theorem mem_of_put_all {entries : Entries α} {added : List (Text × α)} {entry : Text × α}
    (h : entry ∈ putAll entries added) : entry ∈ entries ∨ entry ∈ added := by
  induction added generalizing entries with
  | nil => exact .inl h
  | cons first added ih =>
      rcases ih h with hmem | hmem
      · rcases mem_of_put hmem with hold | rfl
        · exact .inl hold
        · exact .inr (List.mem_cons_self ..)
      · exact .inr (List.mem_cons_of_mem _ hmem)

/-- The names of the entries of a list differ. -/
theorem of_list_nodup (pairs : List (Text × α)) : (ofList pairs).names.Nodup :=
  put_all_nodup (show (names ([] : Entries α)).Nodup from List.nodup_nil) pairs

/-- The entries of a list are in the list. -/
theorem mem_of_list {pairs : List (Text × α)} {entry : Text × α} (h : entry ∈ ofList pairs) :
    entry ∈ pairs :=
  (mem_of_put_all h).resolve_left (by simp)

/-- Putting entries whose names are new and differ adds them at the end. -/
theorem put_all_absent {entries added : Entries α} (h : (entries ++ added).names.Nodup) :
    putAll entries added = entries ++ added := by
  induction added generalizing entries with
  | nil => exact (List.append_nil entries).symm
  | cons entry added ih =>
      obtain ⟨name, value⟩ := entry
      have hnew : name ∉ entries.names := by
        intro hmem
        rw [names, List.map_append, List.map_cons] at h
        exact (List.nodup_append.mp h).2.2 name hmem name (List.mem_cons_self ..) rfl
      have hstep : putAll entries ((name, value) :: added) = putAll (put entries name value) added :=
        rfl
      have hmoved : entries ++ (name, value) :: added = entries ++ [(name, value)] ++ added := by simp
      rw [hmoved] at h
      rw [hstep, put_absent hnew, ih h, hmoved]

/-- A list whose names differ is a list of entries as it is. -/
theorem of_list_eq {pairs : Entries α} (h : pairs.names.Nodup) : ofList pairs = pairs :=
  put_all_absent h

/-- The last of the values put under a name counts. -/
theorem get_put_all (entries : Entries α) (added : List (Text × α)) (name : Text) :
    get? (putAll entries added) name = (get? added.reverse name).or (get? entries name) := by
  induction added generalizing entries with
  | nil => simp [putAll]
  | cons entry added ih =>
      obtain ⟨found, value⟩ := entry
      have hstep : putAll entries ((found, value) :: added) = putAll (put entries found value) added :=
        rfl
      rw [hstep, ih, get_put, List.reverse_cons, get_append, get_cons]
      split <;> simp

/-- The first of the values added under a name counts, unless the name had one before. -/
theorem get_put_all_new (entries : Entries α) (added : List (Text × α)) (name : Text) :
    get? (putAllNew entries added) name = (get? entries name).or (get? added name) := by
  induction added generalizing entries with
  | nil => simp [putAllNew]
  | cons entry added ih =>
      obtain ⟨found, value⟩ := entry
      have hstep : putAllNew entries ((found, value) :: added) =
          putAllNew (putNew entries found value) added := rfl
      rw [hstep, ih, get_put_new, get_cons, Option.or_assoc]
      split <;> simp

/-- What is found after adding a new name was there before or is what was added. -/
theorem mem_of_put_new {entries : Entries α} {name : Text} {value : α} {entry : Text × α}
    (h : entry ∈ putNew entries name value) : entry ∈ entries ∨ entry = (name, value) := by
  simp only [putNew] at h
  split at h
  · exact .inl h
  · exact (List.mem_append.mp h).imp_right List.mem_singleton.mp

/-- What is found after adding the new names of a list was there before or is in the list. -/
theorem mem_of_put_all_new {entries : Entries α} {added : List (Text × α)} {entry : Text × α}
    (h : entry ∈ putAllNew entries added) : entry ∈ entries ∨ entry ∈ added := by
  induction added generalizing entries with
  | nil => exact .inl h
  | cons first added ih =>
      rcases ih h with hmem | hmem
      · rcases mem_of_put_new hmem with hold | rfl
        · exact .inl hold
        · exact .inr (List.mem_cons_self ..)
      · exact .inr (List.mem_cons_of_mem _ hmem)

/-- The entries of a list have the names in the list. -/
theorem mem_names_of_list {pairs : List (Text × α)} {name : Text} :
    name ∈ (ofList pairs).names ↔ name ∈ names pairs := by
  have hsame : get? (ofList pairs) name = none ↔ get? pairs.reverse name = none := by
    rw [ofList, get_put_all, get_nil, Option.or_none]
  rw [get_eq_none_iff, get_eq_none_iff, not_iff_not] at hsame
  simpa [names] using hsame

/-- Changing every value changes what is found. -/
theorem get_map_values (change : α → β) (entries : Entries α) (name : Text) :
    get? (mapValues change entries) name = (get? entries name).map change := by
  induction entries with
  | nil => rfl
  | cons entry entries ih =>
      obtain ⟨found, value⟩ := entry
      have hmap : mapValues change ((found, value) :: entries) =
          (found, change value) :: mapValues change entries := rfl
      rw [hmap, get_cons, get_cons, ih]
      split <;> rfl

end Entries

end LocalizedSite
