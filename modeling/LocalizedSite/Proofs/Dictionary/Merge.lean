import LocalizedSite.Dictionary.Merge
import LocalizedSite.Proofs.Dictionary.Refresh

/-!
# Merging extracted texts

Every text of a page is in the merged dictionary, under its own key and not empty (`merge_has_text`), if
no text that the shared scope had before is empty. The merged dictionary can be written as a file
(`merge_well_formed`).
-/

namespace LocalizedSite

namespace Entries

variable {α : Type}

/-- Adding a new name keeps the names apart. -/
theorem put_new_nodup {entries : Entries α} (h : entries.names.Nodup) (name : Text) (value : α) :
    (putNew entries name value).names.Nodup := by
  by_cases hhas : has entries name = true
  · rwa [putNew, if_pos hhas]
  · have hnew : name ∉ entries.names := by
      rw [← get_eq_none_iff]
      simpa [has] using hhas
    rw [putNew, if_neg hhas, ← put_absent hnew]
    exact put_nodup h name value

/-- Adding new names keeps the names apart. -/
theorem put_all_new_nodup {entries : Entries α} (h : entries.names.Nodup) (added : List (Text × α)) :
    (putAllNew entries added).names.Nodup := by
  induction added generalizing entries with
  | nil => exact h
  | cons entry added ih => exact ih (put_new_nodup h entry.1 entry.2)

/-- The last of the values put under a name is one of them. -/
theorem get_put_all_of_mem (entries : Entries α) {added : List (Text × α)} {name : Text} {value : α}
    (hmem : (name, value) ∈ added) :
    ∃ last, (name, last) ∈ added ∧ get? (putAll entries added) name = some last := by
  cases hget : get? added.reverse name with
  | none =>
      have hnames : name ∈ names added.reverse :=
        List.mem_map.mpr ⟨_, List.mem_reverse.mpr hmem, rfl⟩
      exact absurd hnames (get_eq_none_iff.mp hget)
  | some last =>
      exact ⟨last, List.mem_reverse.mp (mem_of_get hget), by rw [get_put_all, hget, Option.some_or]⟩

end Entries

namespace Dictionary

open Extract

/-- A value is a text that is not empty. -/
def IsFilled (value : Json) : Prop :=
  ∃ text, text ≠ [] ∧ value = .string text

/-- A name has a text that is not empty. -/
def HasFilled (members : Entries Json) (name : Text) : Prop :=
  ∃ value, Entries.get? members name = some value ∧ IsFilled value

/-- No text of a page is empty. -/
def PageTexts.AreFilled (texts : PageTexts) : Prop :=
  ∀ entry ∈ texts.page ++ texts.shared, entry.2 ≠ []

variable {members added : Entries Json} {name : Text}

/-- The values of texts that are not empty are filled. -/
theorem filled_of_texts {texts : Entries Text} (h : ∀ entry ∈ texts, entry.2 ≠ []) :
    ∀ entry ∈ Entries.mapValues Json.string texts, IsFilled entry.2 := by
  intro entry hmem
  obtain ⟨source, hsource, rfl⟩ := List.mem_map.mp hmem
  exact ⟨source.2, h source hsource, rfl⟩

/-- Putting filled values keeps what is filled. -/
theorem HasFilled.put_all (h : HasFilled members name)
    (hadded : ∀ entry ∈ added, IsFilled entry.2) : HasFilled (Entries.putAll members added) name := by
  obtain ⟨value, hget, hfilled⟩ := h
  unfold HasFilled
  rw [Entries.get_put_all]
  cases hlast : Entries.get? added.reverse name with
  | none => exact ⟨value, hget, hfilled⟩
  | some last => exact ⟨last, rfl, hadded _ (List.mem_reverse.mp (Entries.mem_of_get hlast))⟩

/-- What is put is filled if it is filled itself. -/
theorem has_filled_put_all (members : Entries Json) (hadded : ∀ entry ∈ added, IsFilled entry.2)
    (hmem : name ∈ added.names) : HasFilled (Entries.putAll members added) name := by
  obtain ⟨entry, hentry, rfl⟩ := List.mem_map.mp hmem
  obtain ⟨last, hlast, hget⟩ := Entries.get_put_all_of_mem members hentry
  exact ⟨last, hget, hadded _ hlast⟩

/-- Adding new names keeps what is filled. -/
theorem HasFilled.put_all_new (h : HasFilled members name) (added : Entries Json) :
    HasFilled (Entries.putAllNew members added) name := by
  obtain ⟨value, hget, hfilled⟩ := h
  exact ⟨value, by rw [Entries.get_put_all_new, hget, Option.some_or], hfilled⟩

/-- What is added is filled if everything is. -/
theorem has_filled_put_all_new (hmembers : ∀ entry ∈ members, IsFilled entry.2)
    (hadded : ∀ entry ∈ added, IsFilled entry.2) (hmem : name ∈ added.names) :
    HasFilled (Entries.putAllNew members added) name := by
  unfold HasFilled
  rw [Entries.get_put_all_new]
  cases hold : Entries.get? members name with
  | some value => exact ⟨value, rfl, hmembers _ (Entries.mem_of_get hold)⟩
  | none =>
      obtain ⟨value, hvalue⟩ := Option.ne_none_iff_exists'.mp
        (mt Entries.get_eq_none_iff.mp (not_not.mpr hmem))
      exact ⟨value, hvalue, hadded _ (Entries.mem_of_get hvalue)⟩

section Scopes

variable {all : Entries (Entries Json)} {key scope : Text} {texts : PageTexts}

/-- Putting a scope changes the members of that scope alone. -/
theorem members_of_put (all : Entries (Entries Json)) (key other : Text) (members : Entries Json) :
    membersOf (Entries.put all key members) other =
      if other = key then members else membersOf all other := by
  unfold membersOf
  rw [Entries.get_put]
  split <;> rfl

/-- Some scopes with a page's own texts added. -/
def withOwn (all : Entries (Entries Json)) (key : Text) (own : Entries Text) :
    Entries (Entries Json) :=
  Entries.put all key (Entries.putAll (membersOf all key) (Entries.mapValues .string own))

/-- Some scopes with shared texts added. -/
def withShared (all : Entries (Entries Json)) (shared : Entries Text) : Entries (Entries Json) :=
  Entries.put all sharedScope
    (Entries.putAllNew (membersOf all sharedScope) (Entries.mapValues .string shared))

/-- The texts of a page are added in two steps. -/
theorem add_page_texts_eq (all : Entries (Entries Json)) (key : Text) (texts : PageTexts) :
    addPageTexts all key texts = withShared (withOwn all key texts.page) texts.shared := rfl

/-- Under a name of a scope stands a text that is not empty. -/
abbrev IsFilledIn (all : Entries (Entries Json)) (scope name : Text) : Prop :=
  HasFilled (membersOf all scope) name

/-- All texts of the shared scope are filled. -/
def SharedFilled (all : Entries (Entries Json)) : Prop :=
  ∀ entry ∈ membersOf all sharedScope, IsFilled entry.2

section Own

variable {own : Entries Text} (hown : ∀ entry ∈ own, entry.2 ≠ [])
include hown

/-- Adding own texts keeps what is filled. -/
theorem HasFilled.with_own (h : IsFilledIn all scope name) :
    IsFilledIn (withOwn all key own) scope name := by
  unfold IsFilledIn withOwn
  rw [members_of_put]
  split
  · next heq => exact (heq ▸ h).put_all (filled_of_texts hown)
  · exact h

/-- Adding own texts keeps the shared scope filled. -/
theorem SharedFilled.with_own (h : SharedFilled all) : SharedFilled (withOwn all key own) := by
  intro entry hmem
  unfold withOwn at hmem
  rw [members_of_put] at hmem
  split at hmem
  · next heq =>
      rw [← heq] at hmem
      exact (Entries.mem_of_put_all hmem).elim (h entry) (filled_of_texts hown entry)
  · exact h entry hmem

/-- The own texts that are added are filled. -/
theorem filled_with_own (hmem : name ∈ own.names) : IsFilledIn (withOwn all key own) key name := by
  have hname : name ∈ Entries.names (Entries.mapValues Json.string own) := by
    simpa [Entries.names, Entries.mapValues] using hmem
  unfold IsFilledIn withOwn
  rw [members_of_put, if_pos rfl]
  exact has_filled_put_all _ (filled_of_texts hown) hname

end Own

section Shared

variable {shared : Entries Text}

/-- Adding shared texts keeps what is filled. -/
theorem HasFilled.with_shared (h : IsFilledIn all scope name) :
    IsFilledIn (withShared all shared) scope name := by
  unfold IsFilledIn withShared
  rw [members_of_put]
  split
  · next heq => exact (heq ▸ h).put_all_new _
  · exact h

/-- Adding shared texts keeps the shared scope filled. -/
theorem SharedFilled.with_shared (h : SharedFilled all) (hshared : ∀ entry ∈ shared, entry.2 ≠ []) :
    SharedFilled (withShared all shared) := by
  intro entry hmem
  unfold withShared at hmem
  rw [members_of_put, if_pos rfl] at hmem
  exact (Entries.mem_of_put_all_new hmem).elim (h entry) (filled_of_texts hshared entry)

/-- The shared texts that are added are filled. -/
theorem filled_with_shared (h : SharedFilled all) (hshared : ∀ entry ∈ shared, entry.2 ≠ [])
    (hmem : name ∈ shared.names) : IsFilledIn (withShared all shared) sharedScope name := by
  have hname : name ∈ Entries.names (Entries.mapValues Json.string shared) := by
    simpa [Entries.names, Entries.mapValues] using hmem
  unfold IsFilledIn withShared
  rw [members_of_put, if_pos rfl]
  exact has_filled_put_all_new h (filled_of_texts hshared) hname

end Shared

/-- Adding the texts of a page keeps what is filled. -/
theorem HasFilled.add_page_texts (htexts : texts.AreFilled) (h : IsFilledIn all scope name) :
    IsFilledIn (addPageTexts all key texts) scope name := by
  rw [add_page_texts_eq]
  exact (h.with_own fun entry hmem ↦ htexts entry (List.mem_append_left _ hmem)).with_shared

/-- Adding the texts of a page keeps the shared scope filled. -/
theorem SharedFilled.add_page_texts (htexts : texts.AreFilled) (h : SharedFilled all) :
    SharedFilled (addPageTexts all key texts) := by
  rw [add_page_texts_eq]
  exact (h.with_own fun entry hmem ↦ htexts entry (List.mem_append_left _ hmem)).with_shared
    fun entry hmem ↦ htexts entry (List.mem_append_right _ hmem)

/-- A page has a text for a name: its own text in the page's scope, or a shared one in the shared
scope. -/
def PageTexts.Has (texts : PageTexts) (key scope name : Text) : Prop :=
  scope = key ∧ name ∈ texts.page.names ∨ scope = sharedScope ∧ name ∈ texts.shared.names

/-- The texts of a page are filled once they are added. -/
theorem filled_add_page_texts (htexts : texts.AreFilled) (hall : SharedFilled all)
    (h : texts.Has key scope name) : IsFilledIn (addPageTexts all key texts) scope name := by
  have hown : ∀ entry ∈ texts.page, entry.2 ≠ [] := fun entry hmem ↦
    htexts entry (List.mem_append_left _ hmem)
  rw [add_page_texts_eq]
  rcases h with ⟨rfl, hmem⟩ | ⟨rfl, hmem⟩
  · exact (filled_with_own hown hmem).with_shared
  · exact filled_with_shared (hall.with_own hown)
      (fun entry hentry ↦ htexts entry (List.mem_append_right _ hentry)) hmem

/-- Some scopes with the texts of several pages added, one page after another. -/
def addAll (all : Entries (Entries Json)) (results : Entries PageTexts) : Entries (Entries Json) :=
  results.foldl (fun all (key, texts) ↦ addPageTexts all key texts) all

/-- Adding the texts of pages keeps what is filled. -/
theorem HasFilled.add_all {results : Entries PageTexts}
    (hresults : ∀ result ∈ results, result.2.AreFilled) (h : IsFilledIn all scope name) :
    IsFilledIn (addAll all results) scope name := by
  induction results generalizing all with
  | nil => exact h
  | cons result results ih =>
      obtain ⟨hfirst, hothers⟩ := List.forall_mem_cons.mp hresults
      exact ih hothers (h.add_page_texts hfirst)

/-- The texts of every page are filled when all pages are added. -/
theorem filled_add_all {results : Entries PageTexts}
    (hresults : ∀ result ∈ results, result.2.AreFilled) (hall : SharedFilled all)
    (hmem : (key, texts) ∈ results) (h : texts.Has key scope name) :
    IsFilledIn (addAll all results) scope name := by
  induction results generalizing all with
  | nil => exact absurd hmem List.not_mem_nil
  | cons result results ih =>
      have hothers : ∀ other ∈ results, other.2.AreFilled := fun other hother ↦
        hresults other (List.mem_cons_of_mem _ hother)
      rcases List.mem_cons.mp hmem with rfl | hlater
      · have hfirst := filled_add_page_texts (hresults _ (List.mem_cons_self ..)) hall h
        show IsFilledIn (addAll (addPageTexts all key texts) results) scope name
        exact hfirst.add_all hothers
      · exact ih hothers (hall.add_page_texts (hresults result (List.mem_cons_self ..))) hlater

end Scopes

section Order

variable {all : Entries (Entries Json)} {header : Entries Text} {order : List Text}

/-- The header and the shared scope. -/
def firstScopes (header : Entries Text) (all : Entries (Entries Json)) : Dictionary :=
  [(headerName, ofTexts header), (sharedScope, .object (membersOf all sharedScope))]

/-- A dictionary with the scope of a registered page put into it. -/
def orderStep (all : Entries (Entries Json)) (ordered : Dictionary) (key : Text) : Dictionary :=
  match Entries.get? all key with
  | some members => Entries.put ordered key (.object members)
  | none => ordered

/-- First come the header and the shared scope, then the registered pages, and then the others. -/
theorem order_scopes_eq (header : Entries Text) (order : List Text) (all : Entries (Entries Json)) :
    orderScopes header order all =
      Entries.putAllNew (order.foldl (orderStep all) (firstScopes header all))
        (Entries.mapValues .object all) := rfl

/-- Registered pages are put with the members that their scopes have. -/
theorem get_ordered {name : Text} {members : Entries Json}
    (hget : Entries.get? all name = some members) {ordered : Dictionary}
    (hordered : ∀ value, Entries.get? ordered name = some value → value = .object members) :
    ∀ value, Entries.get? (order.foldl (orderStep all) ordered) name = some value →
      value = .object members := by
  induction order generalizing ordered with
  | nil => exact hordered
  | cons key order ih =>
      refine ih fun value hvalue ↦ ?_
      unfold orderStep at hvalue
      split at hvalue
      · next found hfound =>
          rw [Entries.get_put] at hvalue
          split at hvalue
          · next heq =>
              rw [← heq, hget] at hfound
              rw [← Option.some.inj hvalue, Option.some.inj hfound]
          · exact hordered value hvalue
      · exact hordered value hvalue

/-- Every scope but the header is in the ordered dictionary. -/
theorem get_order_scopes {name : Text} {members : Entries Json}
    (hget : Entries.get? all name = some members) (hname : name ≠ headerName) :
    Entries.get? (orderScopes header order all) name = some (.object members) := by
  have hfirst : ∀ value, Entries.get? (firstScopes header all) name = some value →
      value = .object members := by
    intro value hvalue
    rw [firstScopes, Entries.get_cons, if_neg hname, Entries.get_cons] at hvalue
    split at hvalue
    · next heq =>
        rw [← Option.some.inj hvalue, ← heq, membersOf, hget]
        rfl
    · exact absurd hvalue (by simp)
  rw [order_scopes_eq, Entries.get_put_all_new, Entries.get_map_values, hget]
  cases hpaged : Entries.get? (order.foldl (orderStep all) (firstScopes header all)) name with
  | none => rfl
  | some value =>
      rw [get_ordered hget hfirst value hpaged]
      rfl

end Order

section WellFormed

variable {all : Entries (Entries Json)}

/-- The names of some scopes differ, and what they hold is well-formed. -/
structure AreWellFormed (all : Entries (Entries Json)) : Prop where
  nodup : all.names.Nodup
  scopes : ∀ entry ∈ all, Json.WellFormed (.object entry.2)

/-- The members of a scope are well-formed. -/
theorem AreWellFormed.members_of (h : AreWellFormed all) (name : Text) :
    Json.WellFormed (.object (membersOf all name)) := by
  unfold membersOf
  cases hget : Entries.get? all name with
  | none => exact .object List.nodup_nil (by simp)
  | some members => exact h.scopes _ (Entries.mem_of_get hget)

/-- Putting a well-formed scope keeps all well-formed. -/
theorem AreWellFormed.put (h : AreWellFormed all) (key : Text) {members : Entries Json}
    (hmembers : Json.WellFormed (.object members)) : AreWellFormed (Entries.put all key members) where
  nodup := Entries.put_nodup h.nodup key members
  scopes entry hmem := by
    rcases Entries.mem_of_put hmem with hold | rfl
    · exact h.scopes entry hold
    · exact hmembers

/-- Texts are well-formed values. -/
theorem well_formed_texts {texts : Entries Text} :
    ∀ entry ∈ Entries.mapValues Json.string texts, Json.WellFormed entry.2 := by
  intro entry hmem
  obtain ⟨source, -, rfl⟩ := List.mem_map.mp hmem
  exact .string source.2

/-- Putting texts into a well-formed scope keeps it well-formed. -/
theorem well_formed_put_all (h : Json.WellFormed (.object members)) (texts : Entries Text) :
    Json.WellFormed (.object (Entries.putAll members (Entries.mapValues .string texts))) := by
  cases h with
  | object hnames hmembers =>
      refine .object (Entries.put_all_nodup hnames _) fun entry hmem ↦ ?_
      exact (Entries.mem_of_put_all hmem).elim (hmembers entry) (well_formed_texts entry)

/-- Adding texts to a well-formed scope keeps it well-formed. -/
theorem well_formed_put_all_new (h : Json.WellFormed (.object members)) (texts : Entries Text) :
    Json.WellFormed (.object (Entries.putAllNew members (Entries.mapValues .string texts))) := by
  cases h with
  | object hnames hmembers =>
      refine .object (Entries.put_all_new_nodup hnames _) fun entry hmem ↦ ?_
      exact (Entries.mem_of_put_all_new hmem).elim (hmembers entry) (well_formed_texts entry)

/-- Adding the texts of a page keeps all well-formed. -/
theorem AreWellFormed.add_page_texts (h : AreWellFormed all) (key : Text) (texts : PageTexts) :
    AreWellFormed (addPageTexts all key texts) := by
  have hown : AreWellFormed (withOwn all key texts.page) :=
    h.put key (well_formed_put_all (h.members_of key) texts.page)
  exact hown.put sharedScope (well_formed_put_all_new (hown.members_of sharedScope) texts.shared)

/-- Adding the texts of pages keeps all well-formed. -/
theorem AreWellFormed.add_all (h : AreWellFormed all) (results : Entries PageTexts) :
    AreWellFormed (addAll all results) := by
  induction results generalizing all with
  | nil => exact h
  | cons result results ih => exact ih (h.add_page_texts result.1 result.2)

/-- Scopes that are well-formed are so in their order. -/
theorem AreWellFormed.order (h : AreWellFormed all) {header : Entries Text}
    (hheader : (ofTexts header).WellFormed) (order : List Text) :
    Json.WellFormed (.object (orderScopes header order all)) := by
  have hfirst : Json.WellFormed (.object (firstScopes header all)) := by
    refine .object (show [headerName, sharedScope].Nodup by decide) fun entry hmem ↦ ?_
    rcases List.mem_cons.mp hmem with rfl | hmem
    · exact hheader
    · rw [List.mem_singleton.mp hmem]
      exact h.members_of sharedScope
  have hpaged (ordered : Dictionary) (hordered : Json.WellFormed (.object ordered)) :
      Json.WellFormed (.object (order.foldl (orderStep all) ordered)) := by
    induction order generalizing ordered with
    | nil => exact hordered
    | cons key order ih =>
        refine ih _ ?_
        unfold orderStep
        split
        · next members hget =>
            exact put_well_formed hordered key (h.scopes _ (Entries.mem_of_get hget))
        · exact hordered
  rw [order_scopes_eq]
  cases hpaged _ hfirst with
  | object hnames hvalues =>
      refine .object (Entries.put_all_new_nodup hnames _) fun entry hmem ↦ ?_
      refine (Entries.mem_of_put_all_new hmem).elim (hvalues entry) fun hscope ↦ ?_
      obtain ⟨scope, hmember, rfl⟩ := List.mem_map.mp hscope
      exact h.scopes scope hmember

end WellFormed

section Merge

variable {existing : Dictionary} {results : Entries PageTexts} {header : Entries Text}
  {order : List Text}

/-- The scopes of a dictionary, with the shared one among them. -/
def scopesToMerge (existing : Dictionary) : Entries (Entries Json) :=
  Entries.putNew (scopes existing) sharedScope []

/-- Merging adds the texts of all pages to the scopes and puts these into their order. -/
theorem merge_eq (existing : Dictionary) (results : Entries PageTexts) (header : Entries Text)
    (order : List Text) : merge existing results header order =
      orderScopes header order (addAll (scopesToMerge existing) results) := rfl

/-- The scopes of a dictionary stand in its order. -/
theorem scopes_names (existing : Dictionary) :
    (Entries.names (scopes existing)).Sublist (Entries.names existing) := by
  induction existing with
  | nil => exact .slnil
  | cons entry others ih =>
      obtain ⟨name, value⟩ := entry
      have hcases : scopes ((name, value) :: others) = scopes others ∨
          ∃ members, scopes ((name, value) :: others) = (name, members) :: scopes others := by
        unfold scopes
        rw [List.filterMap_cons]
        split
        · exact .inl rfl
        · next found hfound =>
            simp only at hfound
            split at hfound
            · exact absurd hfound (by simp)
            · obtain ⟨members, -, rfl⟩ := Option.map_eq_some_iff.mp hfound
              exact .inr ⟨members, rfl⟩
      rcases hcases with heq | ⟨members, heq⟩
      · rw [heq]
        exact ih.cons name
      · rw [heq]
        exact ih.cons_cons name

/-- The scopes to merge are members of the dictionary, or there is nothing in them. -/
theorem mem_scopes_to_merge {name : Text} {members : Entries Json}
    (h : (name, members) ∈ scopesToMerge existing) : (name, .object members) ∈ existing ∨ members = [] := by
  rcases Entries.mem_of_put_new h with hscope | heq
  · obtain ⟨⟨found, value⟩, hmem, hscope⟩ := List.mem_filterMap.mp hscope
    simp only at hscope
    split at hscope
    · exact absurd hscope (by simp)
    · obtain ⟨others, hothers, heq⟩ := Option.map_eq_some_iff.mp hscope
      obtain ⟨rfl, rfl⟩ := Prod.mk.inj heq
      cases value with
      | object members =>
          obtain rfl : members = others := Option.some.inj hothers
          exact .inl hmem
      | _ => exact absurd hothers (by simp [Json.members?])
  · exact .inr (Prod.mk.inj heq).2

/-- The text of every page is in the merged dictionary and not empty. -/
theorem merge_has_text (hnames : (Entries.names existing).Nodup)
    (hexisting : ∀ members, existing.scope? sharedScope = some members →
      ∀ entry ∈ members, IsFilled entry.2)
    (hresults : ∀ result ∈ results, result.2.AreFilled) {key scope name : Text} {texts : PageTexts}
    (hmem : (key, texts) ∈ results) (hscope : scope ≠ headerName) (h : texts.Has key scope name) :
    ∃ text, (merge existing results header order).text? scope name = some text ∧ text ≠ [] := by
  have hshared : SharedFilled (scopesToMerge existing) := by
    intro entry hentry
    unfold membersOf at hentry
    cases hget : Entries.get? (scopesToMerge existing) sharedScope with
    | none => simp [hget] at hentry
    | some members =>
        rw [hget, Option.getD_some] at hentry
        rcases mem_scopes_to_merge (Entries.mem_of_get hget) with hold | rfl
        · refine hexisting members ?_ entry hentry
          simp [scope?, Entries.get_of_mem hnames hold, Json.members?]
        · exact absurd hentry List.not_mem_nil
  obtain ⟨value, hvalue, text, htext, rfl⟩ := filled_add_all hresults hshared hmem h
  unfold membersOf at hvalue
  cases hget : Entries.get? (addAll (scopesToMerge existing) results) scope with
  | none => simp [hget] at hvalue
  | some members =>
      rw [hget, Option.getD_some] at hvalue
      refine ⟨text, ?_, htext⟩
      rw [merge_eq]
      simp [text?, scope?, get_order_scopes hget hscope, Json.members?, hvalue, Json.string?]

/-- The scopes of a well-formed dictionary are well-formed. -/
theorem scopes_to_merge_well_formed (h : Json.WellFormed (.object existing)) :
    AreWellFormed (scopesToMerge existing) := by
  cases h with
  | object hnames hvalues =>
      refine ⟨Entries.put_new_nodup ?_ _ _, ?_⟩
      · exact List.Nodup.sublist (scopes_names existing) hnames
      · rintro ⟨name, members⟩ hmem
        rcases mem_scopes_to_merge hmem with hold | rfl
        · exact hvalues _ hold
        · exact .object List.nodup_nil (by simp)

/-- A merged dictionary is well-formed if the one before is. -/
theorem merge_well_formed (hexisting : Json.WellFormed (.object existing))
    (hheader : (ofTexts header).WellFormed) (results : Entries PageTexts) (order : List Text) :
    Json.WellFormed (.object (merge existing results header order)) := by
  rw [merge_eq]
  exact ((scopes_to_merge_well_formed hexisting).add_all results).order hheader order

end Merge

end Dictionary

end LocalizedSite
