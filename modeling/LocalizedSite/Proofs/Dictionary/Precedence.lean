import LocalizedSite.Proofs.Dictionary.PageOrder

/-!
# Which value counts in a merged dictionary

An extracted text replaces the one that a page had under its key, a shared text yields to the one that was
there, and nothing else is added or lost (`merge_precedence`). The header and the shared scope come first,
then the registered pages, then the other scopes that were there, and at last the new pages
(`names_merge_parts`).
-/

namespace LocalizedSite.Dictionary

open Extract

/-- The text that was extracted from a page under a key of its own. -/
def pageText? (results : Entries PageTexts) (scope name : Text) : Option Text :=
  (Entries.get? results scope).bind fun texts ↦ Entries.get? texts.page name

/-- Whether a scope was there, or texts of its page were extracted. -/
def isKnown (existing : Dictionary) (results : Entries PageTexts) (scope : Text) : Bool :=
  existing.translatableScopes.contains scope || Entries.has results scope

/-- The registered pages that have a scope, in their order. -/
def registeredScopes (existing : Dictionary) (results : Entries PageTexts) (order : List Text) :
    List Text :=
  (order.filter fun scope ↦ isKnown existing results scope && scope != sharedScope).eraseDups

/-- The scopes that were there and belong to no registered page, in their order. -/
def remainingScopes (existing : Dictionary) (order : List Text) : List Text :=
  existing.translatableScopes.filter fun scope ↦ !order.contains scope && scope != sharedScope

/-- The pages that are neither registered nor had a scope before, in the order of their extraction. -/
def newScopes (existing : Dictionary) (results : Entries PageTexts) (order : List Text) : List Text :=
  (Entries.names results).filter fun scope ↦
    !order.contains scope && !existing.translatableScopes.contains scope

/-- What merging extracted texts into a dictionary keeps, refreshes and orders. -/
structure Refreshes (existing : Dictionary) (results : Entries PageTexts) (header : Entries Text)
    (order : List Text) (merged : Dictionary) : Prop where
  /-- The header is exactly the given one. -/
  header : Entries.get? merged headerName = some (ofTexts header)
  /-- Every key of every scope that was there is still present. -/
  kept : ∀ scope name, scope ≠ headerName → (existing.valueAt? scope name).isSome →
    (merged.valueAt? scope name).isSome
  /-- An extracted text counts before the value that was there. -/
  own : ∀ scope name, scope ≠ headerName → scope ≠ sharedScope → merged.valueAt? scope name =
    ((pageText? results scope name).map .string).or (existing.valueAt? scope name)
  /-- A shared value that was there counts before the text of the first page that has one. -/
  shared : ∀ name, merged.valueAt? sharedScope name =
    (existing.valueAt? sharedScope name).or ((results.findSome? (sharedText? name)).map .string)
  /-- There is nothing but scopes. -/
  objects : AreObjects merged
  /-- The scopes in their order. -/
  names : Entries.names merged = headerName :: sharedScope ::
    (registeredScopes existing results order ++
      (remainingScopes existing order ++ newScopes existing results order))

variable {existing : Dictionary} {results : Entries PageTexts} {header : Entries Text} {order : List Text}

section Values

/-- If the keys of a page's texts differ, then each stands for one text. -/
theorem own_value_eq (hresults : (Entries.names results).Nodup)
    (hpages : ∀ result ∈ results, (Entries.names result.2.page).Nodup) (scope name : Text) :
    ownValue? results scope name = (pageText? results scope name).map .string := by
  rw [ownValue?, own_texts_eq hresults, pageText?]
  cases hget : Entries.get? results scope with
  | none => rfl
  | some texts =>
      have hpage : (Entries.names texts.page).Nodup := hpages _ (Entries.mem_of_get hget)
      have hreverse := Entries.get_of_perm (List.reverse_perm texts.page).symm hpage name
      rw [Option.map_some, Option.getD_some, Option.bind_some, hreverse]

/-- Without a page that goes by the name of the shared scope there is no own text in it. -/
theorem own_value_shared (hshared : sharedScope ∉ Entries.names results) (name : Text) :
    ownValue? results sharedScope name = none := by
  have hnone : ownTexts results sharedScope = [] := by
    refine List.flatMap_eq_nil_iff.mpr fun result hmem ↦ if_neg fun heq ↦ hshared ?_
    exact List.mem_map.mpr ⟨result, hmem, heq⟩
  rw [ownValue?, hnone]
  rfl

end Values

section Order

/-- The scopes that the pages bring are the pages, apart from the shared one. -/
theorem page_names_eq (hshared : sharedScope ∉ Entries.names results) :
    (sharedScope :: results.flatMap fun (key, _) ↦ [key, sharedScope]).filter (· != sharedScope) =
      Entries.names results := by
  rw [List.filter_cons, if_neg (by simp)]
  induction results with
  | nil => rfl
  | cons result results ih =>
      obtain ⟨hfirst, hothers⟩ := not_or.mp (mt List.mem_cons.mpr hshared)
      rw [List.flatMap_cons, List.filter_append, ih hothers]
      simp [Entries.names, Ne.symm hfirst]

/-- The scopes of a merged dictionary, where each stands first. -/
theorem names_merge_first (hexisting : (Entries.names existing).Nodup)
    (hshared : sharedScope ∉ Entries.names results) :
    Entries.names (merge existing results header order) =
      (([headerName, sharedScope] ++ order.filter (Entries.has (mergedScopes existing results)) ++
        existing.translatableScopes) ++ Entries.names results).eraseDups := by
  have hnodup := hexisting.sublist (scopes_names existing)
  rw [names_merge, names_merged_scopes hexisting, scopesToMerge, Entries.names_put_new hnodup,
    names_scopes_eq, Entries.erase_dups_append_left, ← page_names_eq hshared,
    Entries.erase_dups_append_filter]
  · show ([headerName, sharedScope] ++ (_ ++ _)).eraseDups = _
    rw [← List.append_assoc, Entries.erase_dups_append_right]
    simp
  · intro name _ hnew
    simp only [List.mem_append, List.mem_cons, not_or] at hnew
    exact bne_iff_ne.mpr hnew.1.1.2.1

section Parts

variable (hexisting : (Entries.names existing).Nodup)

include hexisting in
/-- The scopes that come out are the known ones and the shared one. -/
theorem has_merged_scopes (scope : Text) : Entries.has (mergedScopes existing results) scope =
    (isKnown existing results scope || scope == sharedScope) := by
  rw [Bool.eq_iff_iff, Entries.has_iff, mem_merged_scopes hexisting, names_scopes_eq, isKnown,
    Bool.or_eq_true, Bool.or_eq_true, List.contains_iff_mem, Entries.has_iff, beq_iff_eq, or_assoc]

/-- The header is none of the known scopes. -/
theorem ne_header_of_known (hheader : headerName ∉ Entries.names results) {scope : Text}
    (h : isKnown existing results scope = true) : scope ≠ headerName := by
  rintro rfl
  simp [isKnown, translatableScopes, Entries.has_iff, hheader] at h

variable (hheader : headerName ∉ Entries.names results)
include hexisting hheader

/-- A known scope comes in front if it is registered or the shared one. -/
theorem contains_front {scope : Text} (h : isKnown existing results scope = true) :
    ([headerName, sharedScope] ++ order.filter (Entries.has (mergedScopes existing results))).contains
      scope = (order.contains scope || scope == sharedScope) := by
  rw [Bool.eq_iff_iff, List.contains_iff_mem]
  simp only [List.mem_append, List.mem_cons, List.not_mem_nil, or_false, ne_header_of_known hheader h,
    false_or, List.mem_filter, has_merged_scopes hexisting, h, Bool.true_or, and_true, Bool.or_eq_true,
    List.contains_iff_mem, beq_iff_eq]
  exact or_comm

/-- Behind the header and the shared scope come the registered pages. -/
theorem registered_scopes_eq :
    ((order.filter (Entries.has (mergedScopes existing results))).removeAll
      [headerName, sharedScope]).eraseDups = registeredScopes existing results order := by
  refine congrArg List.eraseDups ?_
  rw [List.removeAll, List.filter_filter]
  refine List.filter_congr fun scope _ ↦ ?_
  rw [has_merged_scopes hexisting, Bool.eq_iff_iff]
  show (!([headerName, sharedScope].contains scope) && _) = true ↔ _
  simp only [Bool.and_eq_true, Bool.not_eq_true', ← Bool.not_eq_true, List.contains_iff_mem,
    List.mem_cons, List.not_mem_nil, or_false, Bool.or_eq_true, beq_iff_eq, bne_iff_ne]
  have hne : isKnown existing results scope = true → scope ≠ headerName := ne_header_of_known hheader
  tauto

/-- Behind the registered pages come the other scopes that were there. -/
theorem remaining_scopes_eq : (existing.translatableScopes.filter fun scope ↦
    !([headerName, sharedScope] ++ order.filter (Entries.has (mergedScopes existing results))).contains
      scope) = remainingScopes existing order := by
  refine List.filter_congr fun scope hmem ↦ ?_
  rw [contains_front hexisting hheader (by simp [isKnown, hmem]), Bool.not_or]
  rfl

/-- The new pages come last. -/
theorem new_scopes_eq (hshared : sharedScope ∉ Entries.names results) :
    ((Entries.names results).filter fun scope ↦
      !([headerName, sharedScope] ++ order.filter (Entries.has (mergedScopes existing results)) ++
        existing.translatableScopes).contains scope) = newScopes existing results order := by
  refine List.filter_congr fun scope hmem ↦ ?_
  have hne : (scope == sharedScope) = false :=
    beq_eq_false_iff_ne.mpr fun heq ↦ hshared (heq ▸ hmem)
  rw [List.contains_append, contains_front hexisting hheader (by simp [isKnown, Entries.has_iff, hmem]),
    hne, Bool.or_false, Bool.not_or]

/-- The scopes of a merged dictionary in their order. -/
theorem names_merge_parts (hresults : (Entries.names results).Nodup)
    (hshared : sharedScope ∉ Entries.names results) :
    Entries.names (merge existing results header order) = headerName :: sharedScope ::
      (registeredScopes existing results order ++
        (remainingScopes existing order ++ newScopes existing results order)) := by
  have hscopes : existing.translatableScopes.Nodup := by
    rw [← names_scopes_eq]
    exact hexisting.sublist (scopes_names existing)
  have hfirst : [headerName, sharedScope].eraseDups = [headerName, sharedScope] := by decide
  rw [names_merge_first hexisting hshared, Entries.erase_dups_append_nodup hresults,
    Entries.erase_dups_append_nodup hscopes, List.eraseDups_append, hfirst,
    registered_scopes_eq hexisting hheader, remaining_scopes_eq hexisting hheader,
    new_scopes_eq hexisting hheader hshared, List.append_assoc, List.append_assoc]
  rfl

end Parts

end Order

/-- A text that was extracted from a page replaces the one that the page had under the key, a shared text
counts only if there was none and no page before had one; every other entry stays, and no other comes in.
The header is the given one, and the scopes are in their order. -/
theorem merge_precedence (hexisting : (Entries.names existing).Nodup)
    (hresults : (Entries.names results).Nodup)
    (hpages : ∀ result ∈ results, (Entries.names result.2.page).Nodup)
    (hheader : headerName ∉ Entries.names results) (hshared : sharedScope ∉ Entries.names results)
    (header : Entries Text) (order : List Text) :
    Refreshes existing results header order (merge existing results header order) where
  header := get_order_header (get_merged_header hexisting hheader)
  kept scope name hscope hsome := by
    rw [value_at_merge hexisting hscope]
    cases ownValue? results scope name with
    | some value => rfl
    | none =>
        obtain ⟨value, hvalue⟩ := Option.isSome_iff_exists.mp hsome
        rw [hvalue]
        rfl
  own scope name hscope hne := by
    rw [value_at_merge hexisting hscope, own_value_eq hresults hpages, sharedValue?, if_neg hne,
      Option.or_none]
  shared name := by
    rw [value_at_merge_shared hexisting, own_value_shared hshared, Option.none_or]
  objects := are_objects_order_scopes header order _
  names := names_merge_parts hexisting hheader hresults hshared

/-- A dictionary with a shared scope, a registered page and a scope of no page. -/
def standingScopes : Dictionary :=
  [(headerName, ofTexts [("locale".toList, "en".toList)]),
    ("legal".toList, .object [("h1".toList, .string "Imprint".toList)]),
    ("home".toList, .object [("h1".toList, .string "Teas".toList), ("p".toList, .integer 1)]),
    (sharedScope, .object [("th_price".toList, .string "Cost".toList)])]

/-- The texts of two pages with the same heading in their tables are merged into this dictionary; the
second page is new to the site. -/
theorem merge_precedence_prices :
    (Entries.names standingScopes).Nodup ∧ (Entries.names priceTexts).Nodup ∧
      (∀ result ∈ priceTexts, (Entries.names result.2.page).Nodup) ∧
      headerName ∉ Entries.names priceTexts ∧ sharedScope ∉ Entries.names priceTexts ∧
      Refreshes standingScopes priceTexts [("locale".toList, "en".toList)] ["home".toList]
        (merge standingScopes priceTexts [("locale".toList, "en".toList)] ["home".toList]) := by
  refine ⟨?_, ?_, ?_, ?_, ?_, merge_precedence ?_ ?_ ?_ ?_ ?_ _ _⟩
  all_goals decide

end LocalizedSite.Dictionary
