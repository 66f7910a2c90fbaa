import LocalizedSite.Proofs.Dictionary.Merge
import LocalizedSite.Proofs.NameOrder

/-!
# What a merged dictionary holds

The scopes of a merged dictionary by name (`names_merge`, `get_order_scopes_congr`), the names in each
scope (`names_members_of_add_all`), and the value under each of them (`get_members_of_add_all`): the last
own text of a page counts first, then the value that was there, and for the shared scope the first of the
shared texts. Merging the same texts once more therefore changes nothing (`merge_again`).
-/

namespace LocalizedSite.Dictionary

open Extract

variable {all others : Entries (Entries Json)} {results : Entries PageTexts} {scope name : Text}

section Values

/-- The own texts of the pages with a key, in order. -/
def ownTexts (results : Entries PageTexts) (key : Text) : Entries Text :=
  results.flatMap fun (found, texts) ↦ if found = key then texts.page else []

/-- The shared texts of pages, in order. -/
def sharedTexts (results : Entries PageTexts) : Entries Text :=
  results.flatMap fun (_, texts) ↦ texts.shared

/-- The own text of a page for a name: the last one, since it replaces those before. -/
def ownValue? (results : Entries PageTexts) (scope name : Text) : Option Json :=
  (Entries.get? (ownTexts results scope).reverse name).map .string

/-- The shared text for a name: the first one, since those behind yield to it. -/
def sharedValue? (results : Entries PageTexts) (scope name : Text) : Option Json :=
  if scope = sharedScope then (Entries.get? (sharedTexts results) name).map .string else none

/-- Texts as values in the reverse order. -/
theorem map_values_reverse (texts : Entries Text) :
    (Entries.mapValues Json.string texts).reverse = Entries.mapValues .string texts.reverse :=
  List.map_reverse.symm

/-- A name of a scope after the own texts of a page are added. -/
theorem get_with_own (all : Entries (Entries Json)) (key : Text) (own : Entries Text)
    (scope name : Text) :
    Entries.get? (membersOf (withOwn all key own) scope) name =
      ((Entries.get? (if key = scope then own else []).reverse name).map .string).or
        (Entries.get? (membersOf all scope) name) := by
  rw [withOwn, members_of_put]
  by_cases h : scope = key
  · rw [if_pos h, if_pos h.symm, Entries.get_put_all, map_values_reverse, Entries.get_map_values, h]
  · rw [if_neg h, if_neg (Ne.symm h)]
    rfl

/-- A name of a scope after shared texts are added. -/
theorem get_with_shared (all : Entries (Entries Json)) (shared : Entries Text) (scope name : Text) :
    Entries.get? (membersOf (withShared all shared) scope) name =
      (Entries.get? (membersOf all scope) name).or
        (if scope = sharedScope then (Entries.get? shared name).map .string else none) := by
  rw [withShared, members_of_put]
  by_cases h : scope = sharedScope
  · rw [if_pos h, if_pos h, Entries.get_put_all_new, Entries.get_map_values, h]
  · rw [if_neg h, if_neg h, Option.or_none]

/-- A name of a scope after the texts of all pages are added. -/
theorem get_members_of_add_all (all : Entries (Entries Json)) (results : Entries PageTexts)
    (scope name : Text) :
    Entries.get? (membersOf (addAll all results) scope) name =
      (ownValue? results scope name).or
        ((Entries.get? (membersOf all scope) name).or (sharedValue? results scope name)) := by
  induction results generalizing all with
  | nil => simp [addAll, ownValue?, sharedValue?, ownTexts, sharedTexts]
  | cons result results ih =>
      obtain ⟨key, texts⟩ := result
      have hown : ownValue? ((key, texts) :: results) scope name = (ownValue? results scope name).or
          ((Entries.get? (if key = scope then texts.page else []).reverse name).map .string) := by
        unfold ownValue? ownTexts
        rw [List.flatMap_cons, List.reverse_append, Entries.get_append, Option.map_or]
      have hshared : sharedValue? ((key, texts) :: results) scope name =
          (if scope = sharedScope then (Entries.get? texts.shared name).map .string else none).or
            (sharedValue? results scope name) := by
        unfold sharedValue? sharedTexts
        split
        · rw [List.flatMap_cons, Entries.get_append, Option.map_or]
        · rfl
      have hstep : addAll all ((key, texts) :: results) = addAll (addPageTexts all key texts) results :=
        rfl
      rw [hstep, ih, add_page_texts_eq, get_with_shared, get_with_own, hown, hshared]
      simp only [Option.or_assoc]

/-- Of a scope that is not the shared one only the own texts of its page are added. -/
theorem members_of_add_all (all : Entries (Entries Json)) (results : Entries PageTexts)
    (h : scope ≠ sharedScope) :
    membersOf (addAll all results) scope =
      Entries.putAll (membersOf all scope) (Entries.mapValues .string (ownTexts results scope)) := by
  induction results generalizing all with
  | nil => rfl
  | cons result results ih =>
      obtain ⟨key, texts⟩ := result
      have hstep : addAll all ((key, texts) :: results) = addAll (addPageTexts all key texts) results :=
        rfl
      have hown : ownTexts ((key, texts) :: results) scope =
          (if key = scope then texts.page else []) ++ ownTexts results scope := List.flatMap_cons
      rw [hstep, ih, add_page_texts_eq, withShared, members_of_put, if_neg h, withOwn, members_of_put,
        hown]
      by_cases heq : scope = key
      · have hboth : Entries.mapValues Json.string (texts.page ++ ownTexts results scope) =
            Entries.mapValues .string texts.page ++ Entries.mapValues .string (ownTexts results scope) :=
          List.map_append
        rw [if_pos heq, if_pos heq.symm, hboth, Entries.put_all_append, heq]
      · rw [if_neg heq, if_neg (Ne.symm heq), List.nil_append]

end Values

section Names

/-- The names that pages add to a scope, in order. -/
def addedNames (results : Entries PageTexts) (scope : Text) : List Text :=
  results.flatMap fun (key, texts) ↦
    (if key = scope then texts.page.names else []) ++
      if scope = sharedScope then texts.shared.names else []

/-- The names in every scope differ. -/
def AreDistinct (all : Entries (Entries Json)) : Prop :=
  ∀ scope, (membersOf all scope).names.Nodup

/-- Scopes that are well-formed have names that differ. -/
theorem AreWellFormed.distinct (h : AreWellFormed all) : AreDistinct all := by
  intro scope
  cases h.members_of scope with
  | object hnames hmembers => exact hnames

/-- The names in a scope after the texts of a page are added. -/
theorem names_members_of_add_page_texts (h : AreDistinct all) (key : Text) (texts : PageTexts)
    (scope : Text) :
    (membersOf (addPageTexts all key texts) scope).names =
      ((membersOf all scope).names ++ ((if key = scope then texts.page.names else []) ++
        if scope = sharedScope then texts.shared.names else [])).eraseDups := by
  have hown (other : Text) : (membersOf (withOwn all key texts.page) other).names =
      ((membersOf all other).names ++ if key = other then texts.page.names else []).eraseDups := by
    rw [withOwn, members_of_put]
    by_cases heq : other = key
    · rw [if_pos heq, if_pos heq.symm, Entries.names_put_all (h key), Entries.names_map_values, heq]
    · rw [if_neg heq, if_neg (Ne.symm heq), List.append_nil, Entries.erase_dups_eq (h other)]
  have hnodup (other : Text) : (membersOf (withOwn all key texts.page) other).names.Nodup := by
    rw [hown]
    exact Entries.erase_dups_nodup _
  rw [add_page_texts_eq, withShared, members_of_put, ← List.append_assoc,
    ← Entries.erase_dups_append_left (_ ++ _), ← hown]
  by_cases heq : scope = sharedScope
  · rw [if_pos heq, if_pos heq, Entries.names_put_all_new (hnodup sharedScope),
      Entries.names_map_values, heq]
  · rw [if_neg heq, if_neg heq, List.append_nil, Entries.erase_dups_eq (hnodup scope)]

/-- The names in a scope after the texts of all pages are added. -/
theorem names_members_of_add_all (h : AreDistinct all) (results : Entries PageTexts) (scope : Text) :
    (membersOf (addAll all results) scope).names =
      ((membersOf all scope).names ++ addedNames results scope).eraseDups := by
  induction results generalizing all with
  | nil =>
      have hnone : addedNames [] scope = [] := rfl
      rw [hnone, List.append_nil, Entries.erase_dups_eq (h scope)]
      rfl
  | cons result results ih =>
      obtain ⟨key, texts⟩ := result
      have hnext : AreDistinct (addPageTexts all key texts) := by
        intro other
        rw [names_members_of_add_page_texts h]
        exact Entries.erase_dups_nodup _
      have hstep : addAll all ((key, texts) :: results) = addAll (addPageTexts all key texts) results :=
        rfl
      rw [hstep, ih hnext, names_members_of_add_page_texts h, Entries.erase_dups_append_left,
        List.append_assoc]
      rfl

/-- The scopes after the texts of all pages are added. -/
theorem names_add_all (h : all.names.Nodup) (results : Entries PageTexts) :
    (addAll all results).names =
      (all.names ++ results.flatMap fun (key, _) ↦ [key, sharedScope]).eraseDups := by
  induction results generalizing all with
  | nil =>
      rw [List.flatMap_nil, List.append_nil, Entries.erase_dups_eq h]
      rfl
  | cons result results ih =>
      obtain ⟨key, texts⟩ := result
      have hown : (withOwn all key texts.page).names = (all.names ++ [key]).eraseDups :=
        Entries.names_put h ..
      have hboth : (addPageTexts all key texts).names = (all.names ++ [key, sharedScope]).eraseDups := by
        have hnodup : (withOwn all key texts.page).names.Nodup := Entries.put_nodup h ..
        rw [add_page_texts_eq, withShared, Entries.names_put hnodup, hown,
          Entries.erase_dups_append_left, List.append_assoc]
        rfl
      have hnodup : (addPageTexts all key texts).names.Nodup := by
        rw [hboth]
        exact Entries.erase_dups_nodup _
      have hstep : addAll all ((key, texts) :: results) = addAll (addPageTexts all key texts) results :=
        rfl
      rw [hstep, ih hnodup, hboth, Entries.erase_dups_append_left, List.append_assoc,
        List.flatMap_cons]

/-- Scopes are those with a name, and each has its members. -/
theorem get_eq_members_of (all : Entries (Entries Json)) (name : Text) :
    Entries.get? all name = if name ∈ all.names then some (membersOf all name) else none := by
  unfold membersOf
  cases hget : Entries.get? all name with
  | none => rw [if_neg (Entries.get_eq_none_iff.mp hget)]
  | some members =>
      have hmem : name ∈ all.names := List.mem_map.mpr ⟨_, Entries.mem_of_get hget, rfl⟩
      rw [if_pos hmem]
      rfl

end Names

section Order

variable {header : Entries Text} {order : List Text}

/-- The scopes of registered pages are added in their order. -/
theorem names_ordered {ordered : Dictionary} (h : (Entries.names ordered).Nodup)
    (all : Entries (Entries Json)) (order : List Text) :
    Entries.names (order.foldl (orderStep all) ordered) =
      (Entries.names ordered ++ order.filter (Entries.has all)).eraseDups := by
  induction order generalizing ordered with
  | nil =>
      rw [List.filter_nil, List.append_nil, Entries.erase_dups_eq h]
      rfl
  | cons key order ih =>
      rw [List.foldl_cons, List.filter_cons]
      unfold orderStep Entries.has
      cases hget : Entries.get? all key with
      | none => exact ih h
      | some members =>
          have hput : (Entries.names (Entries.put ordered key (.object members))).Nodup :=
            Entries.put_nodup h ..
          rw [Option.isSome_some, if_pos rfl]
          refine (ih hput).trans ?_
          rw [Entries.names_put h, Entries.erase_dups_append_left, List.append_assoc]
          rfl

/-- The scopes in their order in the file. -/
theorem names_order_scopes (header : Entries Text) (order : List Text)
    (all : Entries (Entries Json)) :
    Entries.names (orderScopes header order all) =
      (headerName :: sharedScope :: (order.filter (Entries.has all) ++ all.names)).eraseDups := by
  have hfirst : (Entries.names (firstScopes header all)).Nodup :=
    show [headerName, sharedScope].Nodup by decide
  have hpaged : (Entries.names (order.foldl (orderStep all) (firstScopes header all))).Nodup := by
    rw [names_ordered hfirst]
    exact Entries.erase_dups_nodup _
  rw [order_scopes_eq, Entries.names_put_all_new hpaged, names_ordered hfirst,
    Entries.erase_dups_append_left, List.append_assoc]
  show (_ ++ (_ ++ Entries.names (Entries.mapValues Json.object all))).eraseDups = _
  rw [Entries.names_map_values]
  rfl

/-- What stands under a name other than the shared scope's is known from the scope of that name. -/
theorem get_order_scopes_congr (hname : name ≠ sharedScope)
    (h : Entries.get? all name = Entries.get? others name) :
    Entries.get? (orderScopes header order all) name =
      Entries.get? (orderScopes header order others) name := by
  have hfirst : Entries.get? (firstScopes header all) name =
      Entries.get? (firstScopes header others) name := by
    simp only [firstScopes, Entries.get_cons, if_neg hname]
  have hpaged (first second : Dictionary) (heq : Entries.get? first name = Entries.get? second name) :
      Entries.get? (order.foldl (orderStep all) first) name =
        Entries.get? (order.foldl (orderStep others) second) name := by
    induction order generalizing first second with
    | nil => exact heq
    | cons key order ih =>
        refine ih _ _ ?_
        -- only a page of this very name can make a difference, and it has the same scope in both
        by_cases hkey : key = name
        · subst hkey
          unfold orderStep
          rw [h]
          cases Entries.get? others key with
          | none => exact heq
          | some members => rw [Entries.get_put, Entries.get_put, if_pos rfl, if_pos rfl]
        · have hkept (scopes : Entries (Entries Json)) (ordered : Dictionary) :
              Entries.get? (orderStep scopes ordered key) name = Entries.get? ordered name := by
            unfold orderStep
            cases Entries.get? scopes key with
            | none => rfl
            | some members => rw [Entries.get_put, if_neg (Ne.symm hkey)]
          rw [hkept, hkept, heq]
  rw [order_scopes_eq, order_scopes_eq, Entries.get_put_all_new, Entries.get_put_all_new,
    Entries.get_map_values, Entries.get_map_values, hpaged _ _ hfirst, h]

/-- The header stays the one that is put first, unless a scope goes by its name. -/
theorem get_order_header (h : Entries.get? all headerName = none) :
    Entries.get? (orderScopes header order all) headerName = some (ofTexts header) := by
  have hpaged (ordered : Dictionary)
      (hordered : Entries.get? ordered headerName = some (ofTexts header)) :
      Entries.get? (order.foldl (orderStep all) ordered) headerName = some (ofTexts header) := by
    induction order generalizing ordered with
    | nil => exact hordered
    | cons key order ih =>
        refine ih _ ?_
        unfold orderStep
        cases hkey : Entries.get? all key with
        | none => exact hordered
        | some members =>
            have hne : headerName ≠ key := by
              rintro rfl
              exact absurd (h.symm.trans hkey) (by simp)
            rw [Entries.get_put, if_neg hne]
            exact hordered
  have hfirst : Entries.get? (firstScopes header all) headerName = some (ofTexts header) := by
    rw [firstScopes, Entries.get_cons, if_pos rfl]
  rw [order_scopes_eq, Entries.get_put_all_new, hpaged _ hfirst, Option.some_or]

end Order

section Scopes

variable {existing : Dictionary}

/-- Every value of a dictionary is a scope. -/
def AreObjects (dictionary : Dictionary) : Prop :=
  ∀ entry ∈ dictionary, ∃ members, entry.2 = .object members

/-- Scopes in their order are scopes. -/
theorem are_objects_order_scopes (header : Entries Text) (order : List Text)
    (all : Entries (Entries Json)) : AreObjects (orderScopes header order all) := by
  have hfirst : AreObjects (firstScopes header all) := by
    intro entry hmem
    rcases List.mem_cons.mp hmem with rfl | hmem
    · exact ⟨_, rfl⟩
    · rw [List.mem_singleton.mp hmem]
      exact ⟨_, rfl⟩
  have hpaged (ordered : Dictionary) (h : AreObjects ordered) :
      AreObjects (order.foldl (orderStep all) ordered) := by
    induction order generalizing ordered with
    | nil => exact h
    | cons key order ih =>
        refine ih _ ?_
        unfold orderStep
        split
        · intro entry hmem
          rcases Entries.mem_of_put hmem with hold | rfl
          · exact h entry hold
          · exact ⟨_, rfl⟩
        · exact h
  rw [order_scopes_eq]
  intro entry hmem
  rcases Entries.mem_of_put_all_new hmem with hold | hscope
  · exact hpaged _ hfirst entry hold
  · obtain ⟨scope, -, rfl⟩ := List.mem_map.mp hscope
    exact ⟨_, rfl⟩

/-- The scopes of a dictionary with one more value. -/
theorem scopes_cons (found : Text) (value : Json) (existing : Dictionary) :
    scopes ((found, value) :: existing) =
      (if found = headerName then [] else (value.members?.map (found, ·)).toList) ++
        scopes existing := by
  have happend : scopes ([(found, value)] ++ existing) = scopes [(found, value)] ++ scopes existing :=
    List.filterMap_append
  have hone : scopes [(found, value)] =
      if found = headerName then [] else (value.members?.map (found, ·)).toList := by
    unfold scopes
    by_cases hheader : found = headerName
    · simp [hheader]
    · simp only [List.filterMap_cons, List.filterMap_nil, if_neg hheader]
      cases value.members? <;> rfl
  rw [← hone, ← happend]
  rfl

/-- The scopes of a dictionary by name. -/
theorem get_scopes (h : (Entries.names existing).Nodup) (name : Text) :
    Entries.get? (scopes existing) name =
      if name = headerName then none else existing.scope? name := by
  induction existing with
  | nil => simp [scopes, scope?]
  | cons entry existing ih =>
      obtain ⟨found, value⟩ := entry
      obtain ⟨hnew, hrest⟩ := List.nodup_cons.mp h
      have hscope : scope? ((found, value) :: existing) name =
          if name = found then value.members? else scope? existing name := by
        unfold scope?
        rw [Entries.get_cons]
        split <;> rfl
      rw [scopes_cons, Entries.get_append, ih hrest, hscope]
      by_cases hname : name = found
      · subst hname
        have hnone : scope? existing name = none := by
          rw [scope?, Entries.get_eq_none_iff.mpr hnew, Option.bind_none]
        rw [if_pos rfl, hnone, ite_self, Option.or_none]
        by_cases hheader : name = headerName
        · simp [hheader]
        · cases value.members? <;> simp [hheader, Entries.get_cons]
      · rw [if_neg hname]
        by_cases hheader : found = headerName
        · simp [hheader]
        · cases value.members? <;> simp [hheader, Entries.get_cons, hname]

/-- The scopes that were there are the translatable ones, in their order. -/
theorem names_scopes_eq (existing : Dictionary) :
    (scopes existing).names = existing.translatableScopes := by
  induction existing with
  | nil => rfl
  | cons entry existing ih =>
      obtain ⟨found, value⟩ := entry
      rw [scopes_cons, Entries.names_append, ih]
      unfold translatableScopes
      by_cases hheader : found = headerName
      · simp [hheader, Entries.names]
      · cases hvalue : value.members? <;> simp [hheader, hvalue, Entries.names]

/-- If all values are scopes, then only the header is left out. -/
theorem names_scopes (h : AreObjects existing) :
    (scopes existing).names = (Entries.names existing).filter (· != headerName) := by
  rw [names_scopes_eq, translatableScopes, Entries.names, List.filter_map]
  refine congrArg _ (List.filter_congr fun entry hmem ↦ ?_)
  obtain ⟨members, hmembers⟩ := h entry hmem
  simp [hmembers, Json.members?]

end Scopes

section Merge

variable {existing : Dictionary} {header : Entries Text} {order : List Text}

/-- The scopes of a merged dictionary before they are put into their order. -/
def mergedScopes (existing : Dictionary) (results : Entries PageTexts) : Entries (Entries Json) :=
  addAll (scopesToMerge existing) results

/-- A merged dictionary has these scopes in the order of the file. -/
theorem merge_eq_order_scopes (existing : Dictionary) (results : Entries PageTexts)
    (header : Entries Text) (order : List Text) :
    merge existing results header order = orderScopes header order (mergedScopes existing results) :=
  rfl

/-- The scopes of a dictionary whose names differ have names that differ. -/
theorem scopes_to_merge_nodup (h : (Entries.names existing).Nodup) :
    (scopesToMerge existing).names.Nodup :=
  Entries.put_new_nodup (h.sublist (scopes_names existing)) ..

/-- The scopes of a merged dictionary are those there were and those of the pages. -/
theorem names_merged_scopes (h : (Entries.names existing).Nodup) (results : Entries PageTexts) :
    (mergedScopes existing results).names = ((scopesToMerge existing).names ++
      results.flatMap fun (key, _) ↦ [key, sharedScope]).eraseDups :=
  names_add_all (scopes_to_merge_nodup h) results

/-- The members of the scopes of a merged dictionary. -/
theorem get_members_of_merged (existing : Dictionary) (results : Entries PageTexts)
    (scope name : Text) :
    Entries.get? (membersOf (mergedScopes existing results) scope) name =
      (ownValue? results scope name).or
        ((Entries.get? (membersOf (scopesToMerge existing) scope) name).or
          (sharedValue? results scope name)) :=
  get_members_of_add_all _ results scope name

/-- The names in the scopes of a merged dictionary. -/
theorem names_members_of_merged (h : AreDistinct (scopesToMerge existing))
    (results : Entries PageTexts) (scope : Text) :
    (membersOf (mergedScopes existing results) scope).names =
      ((membersOf (scopesToMerge existing) scope).names ++ addedNames results scope).eraseDups :=
  names_members_of_add_all h results scope

/-- The names of the scopes of a merged dictionary. -/
theorem mem_merged_scopes (h : (Entries.names existing).Nodup) :
    name ∈ (mergedScopes existing results).names ↔
      name ∈ (scopes existing).names ∨ name ∈ Entries.names results ∨ name = sharedScope := by
  rw [names_merged_scopes h, scopesToMerge,
    Entries.names_put_new (h.sublist (scopes_names existing))]
  simp only [List.mem_eraseDups, List.mem_append, List.mem_flatMap, List.mem_cons,
    List.not_mem_nil, or_false, Entries.names, List.mem_map, Prod.exists]
  constructor
  · rintro ((hold | hshared) | ⟨key, texts, hmem, rfl | hshared⟩)
    · exact .inl hold
    · exact .inr (.inr hshared)
    · exact .inr (.inl ⟨name, texts, hmem, rfl⟩)
    · exact .inr (.inr hshared)
  · rintro (hold | ⟨key, texts, hmem, rfl⟩ | hshared)
    · exact .inl (.inl hold)
    · exact .inr ⟨key, texts, hmem, .inl rfl⟩
    · exact .inl (.inr hshared)

/-- No scope goes by the name of the header if no page does. -/
theorem get_merged_header (h : (Entries.names existing).Nodup)
    (hresults : headerName ∉ Entries.names results) :
    Entries.get? (mergedScopes existing results) headerName = none := by
  have hscopes : headerName ∉ (scopes existing).names := by
    rw [← Entries.get_eq_none_iff, get_scopes h, if_pos rfl]
  rw [Entries.get_eq_none_iff, mem_merged_scopes h, not_or, not_or]
  exact ⟨hscopes, hresults, by decide⟩

/-- The scopes of a merged dictionary in the order of the file. -/
theorem names_merge (existing : Dictionary) (results : Entries PageTexts) (header : Entries Text)
    (order : List Text) :
    Entries.names (merge existing results header order) =
      (headerName :: sharedScope :: (order.filter (Entries.has (mergedScopes existing results)) ++
        (mergedScopes existing results).names)).eraseDups :=
  names_order_scopes header order _

/-- The names of a merged dictionary differ. -/
theorem merge_nodup (existing : Dictionary) (results : Entries PageTexts) (header : Entries Text)
    (order : List Text) : (Entries.names (merge existing results header order)).Nodup := by
  rw [names_merge]
  exact Entries.erase_dups_nodup _

/-- Apart from the header all names of a merged dictionary are among its scopes. -/
theorem names_scopes_merge (existing : Dictionary) (results : Entries PageTexts)
    (header : Entries Text) (order : List Text) :
    (scopes (merge existing results header order)).names =
      (Entries.names (merge existing results header order)).filter (· != headerName) :=
  names_scopes (are_objects_order_scopes header order _)

/-- The shared scope of a merged dictionary. -/
theorem get_merge_shared (h : (Entries.names existing).Nodup) :
    Entries.get? (merge existing results header order) sharedScope =
      some (.object (membersOf (mergedScopes existing results) sharedScope)) := by
  have hmem : sharedScope ∈ (mergedScopes existing results).names :=
    (mem_merged_scopes h).mpr (.inr (.inr rfl))
  have hget : Entries.get? (mergedScopes existing results) sharedScope =
      some (membersOf (mergedScopes existing results) sharedScope) := by
    rw [get_eq_members_of, if_pos hmem]
  exact get_order_scopes hget (by decide)

/-- A merged dictionary has a shared scope, so that none is added when texts are merged again. -/
theorem scopes_to_merge_merge (h : (Entries.names existing).Nodup) :
    scopesToMerge (merge existing results header order) = scopes (merge existing results header order) := by
  have hne : sharedScope ≠ headerName := by decide
  have hscope : Entries.get? (scopes (merge existing results header order)) sharedScope =
      some (membersOf (mergedScopes existing results) sharedScope) := by
    rw [get_scopes (merge_nodup ..), if_neg hne, scope?, get_merge_shared h]
    rfl
  rw [scopesToMerge, Entries.putNew, Entries.has, hscope, Option.isSome_some, if_pos rfl]

/-- The scopes of a merged dictionary, apart from the header, are its scopes before they were put into
their order. -/
theorem get_scopes_merge (h : (Entries.names existing).Nodup) (hname : name ≠ headerName) :
    Entries.get? (scopesToMerge (merge existing results header order)) name =
      Entries.get? (mergedScopes existing results) name := by
  rw [scopes_to_merge_merge h, get_scopes (merge_nodup ..), if_neg hname, scope?]
  cases hget : Entries.get? (mergedScopes existing results) name with
  | some members =>
      rw [merge_eq_order_scopes, get_order_scopes hget hname]
      rfl
  | none =>
      have habsent : name ∉ (mergedScopes existing results).names := Entries.get_eq_none_iff.mp hget
      have hnone : name ∉ Entries.names (merge existing results header order) := by
        rw [names_merge]
        simp only [List.mem_eraseDups, List.mem_cons, List.mem_append, List.mem_filter]
        rintro (heq | heq | ⟨-, hhas⟩ | hmem)
        · exact hname heq
        · exact habsent ((mem_merged_scopes h).mpr (.inr (.inr heq)))
        · exact habsent (Entries.has_iff.mp hhas)
        · exact habsent hmem
      rw [Entries.get_eq_none_iff.mpr hnone]
      rfl

/-- The scopes of a merged dictionary by name. -/
theorem scope_merge (h : (Entries.names existing).Nodup) (hname : name ≠ headerName) :
    (merge existing results header order).scope? name =
      Entries.get? (mergedScopes existing results) name := by
  rw [← get_scopes_merge h hname, scopes_to_merge_merge h, get_scopes (merge_nodup ..), if_neg hname]

/-- The header is none of the scopes to merge. -/
theorem members_of_header (h : (Entries.names existing).Nodup) :
    membersOf (scopesToMerge existing) headerName = [] := by
  have hne : headerName ≠ sharedScope := by decide
  rw [membersOf, scopesToMerge, Entries.get_put_new, get_scopes h, if_pos rfl, if_neg hne]
  rfl

section Again

variable (h : (Entries.names existing).Nodup) (hdistinct : AreDistinct (scopesToMerge existing))
include h hdistinct

/-- The members of every scope come out the same when the same texts are merged once more. -/
theorem members_of_merged_again (scope : Text) :
    membersOf (mergedScopes (merge existing results header order) results) scope =
      membersOf (mergedScopes existing results) scope := by
  have hbefore (other : Text) :
      membersOf (scopesToMerge (merge existing results header order)) other =
        if other = headerName then membersOf (scopesToMerge existing) other
        else membersOf (mergedScopes existing results) other := by
    split
    · next heq => rw [heq, members_of_header h, members_of_header (merge_nodup ..)]
    · next hne => rw [membersOf, get_scopes_merge h hne, ← membersOf]
  have hagain : AreDistinct (scopesToMerge (merge existing results header order)) := by
    intro other
    rw [hbefore]
    split
    · exact hdistinct other
    · rw [names_members_of_merged hdistinct]
      exact Entries.erase_dups_nodup _
  refine Entries.eq_of_names ?_ ?_ fun name ↦ ?_
  · rw [names_members_of_merged hagain]
    exact Entries.erase_dups_nodup _
  · rw [names_members_of_merged hagain, hbefore, names_members_of_merged hdistinct]
    split
    · rfl
    · rw [names_members_of_merged hdistinct, Entries.erase_dups_append_left, List.append_assoc,
        ← Entries.erase_dups_append_right,
        Entries.erase_dups_append_of_subset fun name hmem ↦ hmem, Entries.erase_dups_append_right]
  · rw [get_members_of_merged, hbefore, get_members_of_merged]
    split
    · rfl
    · rw [get_members_of_merged]
      cases ownValue? results scope name <;>
        cases Entries.get? (membersOf (scopesToMerge existing) scope) name <;>
        cases sharedValue? results scope name <;> rfl

/-- The same scopes come out when the same texts are merged once more. -/
theorem get_merged_again (name : Text) :
    Entries.get? (mergedScopes (merge existing results header order) results) name =
      Entries.get? (mergedScopes existing results) name := by
  have hmem : name ∈ (mergedScopes (merge existing results header order) results).names ↔
      name ∈ (mergedScopes existing results).names := by
    have hheader : headerName ∉ (scopes existing).names := by
      rw [← Entries.get_eq_none_iff, get_scopes h, if_pos rfl]
    rw [mem_merged_scopes (merge_nodup ..), names_scopes_merge, names_merge, List.mem_filter]
    simp only [List.mem_eraseDups, List.mem_cons, List.mem_append, List.mem_filter, Entries.has_iff,
      mem_merged_scopes h, bne_iff_ne, ne_eq]
    constructor
    · rintro (⟨heq | heq | ⟨-, hold⟩ | hold, hne⟩ | hresult | heq)
      · exact absurd heq hne
      · exact .inr (.inr heq)
      · exact hold
      · exact hold
      · exact .inr (.inl hresult)
      · exact .inr (.inr heq)
    · rintro (hold | hresult | heq)
      · refine .inl ⟨.inr (.inr (.inr (.inl hold))), ?_⟩
        rintro rfl
        exact hheader hold
      · exact .inr (.inl hresult)
      · exact .inr (.inr heq)
  rw [get_eq_members_of, get_eq_members_of, members_of_merged_again h hdistinct]
  simp only [hmem]

/-- The names come out in the same order when the same texts are merged once more. -/
theorem names_merge_again :
    Entries.names (merge (merge existing results header order) results header order) =
      Entries.names (merge existing results header order) := by
  have hhas : Entries.has (mergedScopes (merge existing results header order) results) =
      Entries.has (mergedScopes existing results) := by
    funext name
    rw [Entries.has, get_merged_again h hdistinct, Entries.has]
  have hadded : ∀ name ∈ results.flatMap (fun (key, _) ↦ [key, sharedScope]),
      name ∈ (mergedScopes existing results).names := by
    intro name hname
    rw [names_merged_scopes h]
    exact List.mem_eraseDups.mpr (List.mem_append_right _ hname)
  have hkeeps : ∀ name,
      name ∉ headerName :: sharedScope :: order.filter (Entries.has (mergedScopes existing results)) →
        (name != headerName) = true := by
    intro name hname
    rw [bne_iff_ne]
    rintro rfl
    exact hname (List.mem_cons_self ..)
  rw [names_merge, hhas, names_merged_scopes (merge_nodup ..), scopes_to_merge_merge h,
    names_scopes_merge, names_merge]
  exact Entries.erase_dups_again hkeeps hadded

/-- Merging the same texts once more changes nothing. -/
theorem merge_again :
    merge (merge existing results header order) results header order =
      merge existing results header order := by
  refine Entries.eq_of_names (merge_nodup ..) (names_merge_again h hdistinct) fun name ↦ ?_
  by_cases hshared : name = sharedScope
  · rw [hshared, get_merge_shared (merge_nodup ..), get_merge_shared h,
      members_of_merged_again h hdistinct]
  · exact get_order_scopes_congr hshared (get_merged_again h hdistinct name)

end Again

end Merge

end LocalizedSite.Dictionary
