import LocalizedSite.Proofs.Dictionary.Merged

/-!
# Pages in another order, and pages in batches

## The order of the pages

The order in which the texts of pages are merged decides about one thing only: if two pages bring
different shared texts under one name, and nothing else stands under it, then the page that comes first
has its text in the shared scope. Everything else comes out the same in every order
(`merge_reordered`).
-/

namespace LocalizedSite.Dictionary

open Extract

variable {existing : Dictionary} {results others : Entries PageTexts} {name : Text}

/-- The value of an entry. -/
def valueAt? (dictionary : Dictionary) (scope name : Text) : Option Json :=
  (dictionary.scope? scope).bind (Entries.get? · name)

/-- The shared text that a page has under a name. -/
def sharedText? (name : Text) (result : Text × PageTexts) : Option Text :=
  Entries.get? result.2.shared name

/-- Pages contend for a name of the shared scope. -/
structure Contested (existing : Dictionary) (results : Entries PageTexts) (name : Text) : Prop where
  /-- The shared scope has no value under the name so far. -/
  new : existing.valueAt? sharedScope name = none
  /-- No page that goes by the name of the shared scope has an own text under it. -/
  free : ownValue? results sharedScope name = none
  /-- Two pages have different texts for it. -/
  differ : ∃ first ∈ results, ∃ second ∈ results, ∃ text other,
    sharedText? name first = some text ∧ sharedText? name second = some other ∧ text ≠ other

/-- Two dictionaries have the same scopes with the same names and values in them, except for the
values of some names of the shared scope. -/
structure AgreeBut (contested : Text → Prop) (first second : Dictionary) : Prop where
  /-- The same scopes, perhaps in another order. -/
  scopes : (Entries.names first).Perm (Entries.names second)
  /-- Other scopes than the shared one are the same. -/
  elsewhere : ∀ scope, scope ≠ sharedScope → Entries.get? first scope = Entries.get? second scope
  /-- The shared scope has the same names. -/
  names : ∀ name, (first.valueAt? sharedScope name).isSome = (second.valueAt? sharedScope name).isSome
  /-- The shared scope has the same values. -/
  values : ∀ name, ¬ contested name →
    first.valueAt? sharedScope name = second.valueAt? sharedScope name

section Texts

/-- The shared text for a name is that of the first page that has one. -/
theorem get_shared_texts (results : Entries PageTexts) (name : Text) :
    Entries.get? (sharedTexts results) name = results.findSome? (sharedText? name) := by
  induction results with
  | nil => rfl
  | cons result results ih =>
      have hfirst : sharedTexts (result :: results) = result.2.shared ++ sharedTexts results :=
        List.flatMap_cons
      rw [hfirst, Entries.get_append, ih, List.findSome?_cons, sharedText?]
      cases Entries.get? result.2.shared name <;> rfl

/-- If the keys differ, then the own texts under a key are those of one page. -/
theorem own_texts_eq (h : (Entries.names results).Nodup) (key : Text) :
    ownTexts results key = ((Entries.get? results key).map PageTexts.page).getD [] := by
  induction results with
  | nil => rfl
  | cons result results ih =>
      obtain ⟨found, texts⟩ := result
      obtain ⟨hnew, hrest⟩ := List.nodup_cons.mp h
      have hfirst : ownTexts ((found, texts) :: results) key =
          (if found = key then texts.page else []) ++ ownTexts results key := List.flatMap_cons
      rw [hfirst, ih hrest, Entries.get_cons]
      by_cases heq : found = key
      · subst heq
        rw [if_pos rfl, if_pos rfl, Entries.get_eq_none_iff.mpr hnew]
        exact List.append_nil _
      · rw [if_neg heq, if_neg (Ne.symm heq), List.nil_append]

variable (h : results.Perm others)
include h

/-- The own texts are the same in every order. -/
theorem own_texts_of_perm (hresults : (Entries.names results).Nodup) (key : Text) :
    ownTexts results key = ownTexts others key := by
  have hothers : (Entries.names others).Nodup := (h.map Prod.fst).nodup hresults
  rw [own_texts_eq hresults, own_texts_eq hothers, Entries.get_of_perm h hresults]

/-- Whether there is a shared text does not depend on the order. -/
theorem shared_text_none_iff (name : Text) :
    results.findSome? (sharedText? name) = none ↔ others.findSome? (sharedText? name) = none := by
  rw [List.findSome?_eq_none_iff, List.findSome?_eq_none_iff]
  simp only [h.mem_iff]

/-- If the pages agree about a name, then its shared text is the same in every order. -/
theorem shared_text_of_perm
    (hagree : ∀ first ∈ results, ∀ second ∈ results, ∀ text other,
      sharedText? name first = some text → sharedText? name second = some other → text = other) :
    results.findSome? (sharedText? name) = others.findSome? (sharedText? name) := by
  cases hfirst : results.findSome? (sharedText? name) with
  | none => exact ((shared_text_none_iff h name).mp hfirst).symm
  | some text =>
      have hsome := mt (shared_text_none_iff h name).mpr (by rw [hfirst]; exact Option.some_ne_none _)
      obtain ⟨other, hsecond⟩ := Option.ne_none_iff_exists'.mp hsome
      obtain ⟨first, hmem, htext⟩ := List.exists_of_findSome?_eq_some hfirst
      obtain ⟨second, hother, htexts⟩ := List.exists_of_findSome?_eq_some hsecond
      rw [hsecond, hagree first hmem second (h.mem_iff.mpr hother) text other htext htexts]

end Texts

section Reordered

variable {header : Entries Text} {order : List Text}

/-- An entry of a merged dictionary. -/
theorem value_at_merge (h : (Entries.names existing).Nodup) {scope : Text} (hscope : scope ≠ headerName)
    (name : Text) :
    (merge existing results header order).valueAt? scope name =
      (ownValue? results scope name).or
        ((existing.valueAt? scope name).or (sharedValue? results scope name)) := by
  have hmembers (all : Entries (Entries Json)) :
      (Entries.get? all scope).bind (Entries.get? · name) = Entries.get? (membersOf all scope) name := by
    unfold membersOf
    cases Entries.get? all scope <;> rfl
  have hbefore : Entries.get? (membersOf (scopesToMerge existing) scope) name =
      existing.valueAt? scope name := by
    rw [← hmembers, scopesToMerge, Entries.get_put_new, get_scopes h, if_neg hscope, valueAt?]
    cases existing.scope? scope with
    | some members => rfl
    | none =>
        rw [Option.none_or]
        split <;> rfl
  rw [valueAt?, scope_merge h hscope, hmembers, get_members_of_merged, hbefore]

/-- An entry of the shared scope of a merged dictionary. -/
theorem value_at_merge_shared (h : (Entries.names existing).Nodup) (name : Text) :
    (merge existing results header order).valueAt? sharedScope name =
      (ownValue? results sharedScope name).or ((existing.valueAt? sharedScope name).or
        ((results.findSome? (sharedText? name)).map .string)) := by
  rw [value_at_merge h (by decide), sharedValue?, if_pos rfl, get_shared_texts]

/-- Merging pages in another order gives the same scopes, names and values, except for the names that
pages contend for. -/
theorem agree_of_perm (hexisting : (Entries.names existing).Nodup)
    (hresults : (Entries.names results).Nodup) (h : results.Perm others) :
    AgreeBut (Contested existing results) (merge existing results header order)
      (merge existing others header order) := by
  have hown (scope : Text) := own_texts_of_perm h hresults scope
  have hvalue (scope name : Text) : ownValue? results scope name = ownValue? others scope name := by
    rw [ownValue?, ownValue?, hown]
  have hmem (scope : Text) : scope ∈ (mergedScopes existing results).names ↔
      scope ∈ (mergedScopes existing others).names := by
    rw [mem_merged_scopes hexisting, mem_merged_scopes hexisting]
    simp only [Entries.names, (h.map Prod.fst).mem_iff]
  refine ⟨?_, fun scope hscope ↦ ?_, fun name ↦ ?_, fun name hname ↦ ?_⟩
  · refine (List.perm_ext_iff_of_nodup (merge_nodup ..) (merge_nodup ..)).mpr fun scope ↦ ?_
    rw [names_merge, names_merge]
    simp only [List.mem_eraseDups, List.mem_cons, List.mem_append, List.mem_filter, Entries.has_iff,
      hmem]
  · have hmembers : membersOf (mergedScopes existing results) scope =
        membersOf (mergedScopes existing others) scope := by
      rw [mergedScopes, mergedScopes, members_of_add_all _ _ hscope, members_of_add_all _ _ hscope, hown]
    have hget : Entries.get? (mergedScopes existing results) scope =
        Entries.get? (mergedScopes existing others) scope := by
      rw [get_eq_members_of, get_eq_members_of, hmembers]
      simp only [hmem]
    exact get_order_scopes_congr hscope hget
  · have hnone := shared_text_none_iff h name
    rw [value_at_merge_shared hexisting, value_at_merge_shared hexisting, hvalue]
    cases hfirst : results.findSome? (sharedText? name) with
    | none => rw [hnone.mp hfirst]
    | some text =>
        obtain ⟨other, hother⟩ := Option.ne_none_iff_exists'.mp
          (mt hnone.mpr (by rw [hfirst]; exact Option.some_ne_none _))
        rw [hother]
        cases ownValue? others sharedScope name <;> cases existing.valueAt? sharedScope name <;> rfl
  · rw [value_at_merge_shared hexisting, value_at_merge_shared hexisting, hvalue]
    cases hnew : existing.valueAt? sharedScope name with
    | some value => rfl
    | none =>
        cases hfree : ownValue? others sharedScope name with
        | some value => rfl
        | none =>
            have hagree : results.findSome? (sharedText? name) = others.findSome? (sharedText? name) :=
              shared_text_of_perm h fun first hfirst second hsecond text other htext hother ↦
                by_contra fun hne ↦ hname ⟨hnew, (hvalue ..).trans hfree, first, hfirst, second,
                  hsecond, text, other, htext, hother, hne⟩
            rw [hagree]

/-- If pages contend for a name, then one of them that comes first may win it. -/
theorem differ_of_contested (hexisting : (Entries.names existing).Nodup)
    (hresults : (Entries.names results).Nodup) (h : Contested existing results name) :
    ∃ others, results.Perm others ∧ (merge existing others header order).valueAt? sharedScope name ≠
      (merge existing results header order).valueAt? sharedScope name := by
  have hvalue (others : Entries PageTexts) (hperm : results.Perm others) :
      (merge existing others header order).valueAt? sharedScope name =
        (others.findSome? (sharedText? name)).map .string := by
    have hfree : ownValue? others sharedScope name = none := by
      rw [← h.free, ownValue?, ownValue?, own_texts_of_perm hperm hresults]
    rw [value_at_merge_shared hexisting, hfree, h.new, Option.none_or, Option.none_or]
  -- a page with a text moved to the front has this text in the shared scope
  have hfront {page : Text × PageTexts} {text : Text} (hmem : page ∈ results)
      (htext : sharedText? name page = some text) :
      ∃ others, results.Perm others ∧
        (merge existing others header order).valueAt? sharedScope name = some (.string text) := by
    obtain ⟨before, after, rfl⟩ := List.append_of_mem hmem
    refine ⟨page :: (before ++ after), List.perm_middle, ?_⟩
    rw [hvalue _ List.perm_middle, List.findSome?_cons, htext]
    rfl
  obtain ⟨first, hfirst, second, hsecond, text, other, htext, hother, hne⟩ := h.differ
  by_cases heq : (merge existing results header order).valueAt? sharedScope name = some (.string text)
  · obtain ⟨others, hperm, hothers⟩ := hfront hsecond hother
    refine ⟨others, hperm, ?_⟩
    rw [hothers, heq]
    simpa using Ne.symm hne
  · obtain ⟨others, hperm, hothers⟩ := hfront hfirst htext
    exact ⟨others, hperm, hothers ▸ Ne.symm heq⟩

/-- The order in which the texts of pages are merged makes no difference for scopes, names and values,
except for the names that pages contend for. Such a name has the text of the first page that brings
one, and in some other order it has another text. -/
theorem merge_reordered (hexisting : (Entries.names existing).Nodup)
    (hresults : (Entries.names results).Nodup) (header : Entries Text) (order : List Text) :
    (∀ others, results.Perm others → AgreeBut (Contested existing results)
      (merge existing results header order) (merge existing others header order)) ∧
    ∀ name, (Contested existing results name ↔
        ∃ others, results.Perm others ∧ (merge existing others header order).valueAt? sharedScope name ≠
          (merge existing results header order).valueAt? sharedScope name) ∧
      (Contested existing results name →
        (merge existing results header order).valueAt? sharedScope name =
          (results.findSome? (sharedText? name)).map .string) := by
  refine ⟨fun others h ↦ agree_of_perm hexisting hresults h, fun name ↦ ⟨⟨?_, ?_⟩, fun h ↦ ?_⟩⟩
  · exact differ_of_contested hexisting hresults
  · rintro ⟨others, hperm, hdiffer⟩
    by_contra hname
    exact hdiffer ((agree_of_perm hexisting hresults hperm).values name hname).symm
  · rw [value_at_merge_shared hexisting, h.free, h.new, Option.none_or, Option.none_or]

/-- Two pages whose price tables have different headings. -/
def priceTexts : Entries PageTexts :=
  [("home".toList, ⟨[("h1".toList, "Tea".toList)], [("th_price".toList, "Price (€)".toList)]⟩),
    ("about".toList, ⟨[("h1".toList, "About us".toList)], [("th_price".toList, "Price ($)".toList)]⟩)]

/-- The headings of price tables depend on the order of the pages, and nothing else does. -/
theorem merge_reordered_prices :
    (Entries.names ([] : Dictionary)).Nodup ∧ (Entries.names priceTexts).Nodup ∧
      AgreeBut (Contested [] priceTexts) (merge [] priceTexts [] ["home".toList, "about".toList])
        (merge [] priceTexts.reverse [] ["home".toList, "about".toList]) :=
  ⟨by decide, by decide, (merge_reordered (by decide) (by decide) [] _).1 priceTexts.reverse
    (List.reverse_perm priceTexts).symm⟩

/-- The shared scope has the price heading of the page that came first. -/
theorem merge_price_depends :
    priceTexts.Perm priceTexts.reverse ∧
      (merge [] priceTexts [] ["home".toList, "about".toList]).text? sharedScope "th_price".toList =
        some "Price (€)".toList ∧
      (merge [] priceTexts.reverse [] ["home".toList, "about".toList]).text? sharedScope
        "th_price".toList = some "Price ($)".toList :=
  ⟨(List.reverse_perm priceTexts).symm, by decide +kernel, by decide +kernel⟩

end Reordered

end LocalizedSite.Dictionary

/-!
## Merging in batches

The texts of pages may be merged batch by batch: what comes out is the same as if all were merged at once,
also in the order of scopes and of keys (`merge_batches`). Between two batches the scopes are put into their
order and taken apart again, which changes their order but none of them (`SameScopes`).
-/

namespace LocalizedSite.Dictionary

open Extract

variable {all others : Entries (Entries Json)} {existing : Dictionary}

/-- Two collections have the same scopes, perhaps in another order. -/
def SameScopes (all others : Entries (Entries Json)) : Prop :=
  ∀ name, Entries.get? all name = Entries.get? others name

namespace SameScopes

theorem has_eq (h : SameScopes all others) : Entries.has all = Entries.has others := by
  funext name
  rw [Entries.has, h name, Entries.has]

theorem members_eq (h : SameScopes all others) (name : Text) :
    membersOf all name = membersOf others name := by
  rw [membersOf, h name, membersOf]

/-- The same scope is put into both. -/
theorem put (h : SameScopes all others) (key : Text) (members : Entries Json) :
    SameScopes (Entries.put all key members) (Entries.put others key members) := by
  intro name
  rw [Entries.get_put, Entries.get_put, h name]

/-- The texts of a page are added to both. -/
theorem add_page_texts (h : SameScopes all others) (key : Text) (texts : PageTexts) :
    SameScopes (addPageTexts all key texts) (addPageTexts others key texts) := by
  have hown : SameScopes (withOwn all key texts.page) (withOwn others key texts.page) := by
    unfold withOwn
    rw [h.members_eq]
    exact h.put key _
  rw [add_page_texts_eq, add_page_texts_eq, withShared, withShared, hown.members_eq]
  exact hown.put sharedScope _

/-- The texts of all pages are added to both. -/
theorem add_all (h : SameScopes all others) (results : Entries PageTexts) :
    SameScopes (addAll all results) (addAll others results) := by
  induction results generalizing all others with
  | nil => exact h
  | cons result results ih => exact ih (h.add_page_texts result.1 result.2)

end SameScopes

section Batches

variable {first second : Entries PageTexts} {header : Entries Text} {order : List Text}

/-- The texts of two batches are added one batch after the other. -/
theorem merged_scopes_append (existing : Dictionary) (first second : Entries PageTexts) :
    mergedScopes existing (first ++ second) = addAll (mergedScopes existing first) second :=
  List.foldl_append

/-- The scopes to merge with the second batch are those that the first one left. -/
theorem same_scopes_between (h : (Entries.names existing).Nodup)
    (hfirst : headerName ∉ Entries.names first) :
    SameScopes (scopesToMerge (merge existing first header order)) (mergedScopes existing first) := by
  intro name
  by_cases hname : name = headerName
  · have hne : headerName ≠ sharedScope := by decide
    rw [hname, get_merged_header h hfirst, scopesToMerge, Entries.get_put_new,
      get_scopes (merge_nodup ..), if_pos rfl, if_neg hne]
    rfl
  · exact get_scopes_merge h hname

/-- After the second batch the scopes are those that come of both batches at once. -/
theorem same_scopes_after (h : (Entries.names existing).Nodup)
    (hfirst : headerName ∉ Entries.names first) :
    SameScopes (mergedScopes (merge existing first header order) second)
      (mergedScopes existing (first ++ second)) := by
  rw [merged_scopes_append]
  exact (same_scopes_between h hfirst).add_all second

/-- The scopes come out in the same order. -/
theorem names_merge_batches (h : (Entries.names existing).Nodup)
    (hfirst : headerName ∉ Entries.names first) :
    Entries.names (merge (merge existing first header order) second header order) =
      Entries.names (merge existing (first ++ second) header order) := by
  have hnodup : (mergedScopes existing first).names.Nodup := by
    rw [names_merged_scopes h]
    exact Entries.erase_dups_nodup _
  -- what comes in front after the first batch comes in front after both
  have hfront : ∀ name ∈ headerName :: sharedScope ::
        order.filter (Entries.has (mergedScopes existing first)),
      name ∈ headerName :: sharedScope ::
        order.filter (Entries.has (mergedScopes existing (first ++ second))) := by
    intro name hname
    simp only [List.mem_cons, List.mem_filter, Entries.has_iff, mem_merged_scopes h,
      Entries.names_append, List.mem_append] at hname ⊢
    tauto
  have hkeeps : ∀ name, name ∉ headerName :: sharedScope ::
        order.filter (Entries.has (mergedScopes existing (first ++ second))) →
      (name != headerName) = true := by
    intro name hname
    rw [bne_iff_ne]
    rintro rfl
    exact hname (List.mem_cons_self ..)
  rw [names_merge, names_merge, (same_scopes_after h hfirst).has_eq, names_merged_scopes (merge_nodup ..),
    scopes_to_merge_merge h, names_scopes_merge, names_merge, merged_scopes_append, names_add_all hnodup,
    ← merged_scopes_append]
  exact Entries.erase_dups_behind hfront hkeeps

/-- Merging the texts of pages batch by batch gives the same dictionary as merging all of them at once:
the same scopes in the same order, with the same values under the same keys in the same order. -/
theorem merge_batches (h : (Entries.names existing).Nodup) (hfirst : headerName ∉ Entries.names first)
    (second : Entries PageTexts) (header : Entries Text) (order : List Text) :
    merge (merge existing first header order) second header order =
      merge existing (first ++ second) header order := by
  have hsame : SameScopes (mergedScopes (merge existing first header order) second)
      (mergedScopes existing (first ++ second)) := same_scopes_after h hfirst
  refine Entries.eq_of_names (merge_nodup ..) (names_merge_batches h hfirst) fun name ↦ ?_
  by_cases hshared : name = sharedScope
  · rw [hshared, get_merge_shared (merge_nodup ..), get_merge_shared h, hsame.members_eq]
  · exact get_order_scopes_congr hshared (hsame name)

/-- A dictionary with a scope of no page, and with a text where the shared scope should be. -/
def legalScopes : Dictionary :=
  [("legal".toList, .object [("h1".toList, .string "Imprint".toList)]),
    (sharedScope, .string "none".toList)]

/-- The texts of a start page. -/
def homeTexts : Text × PageTexts :=
  ("home".toList, ⟨[("h1".toList, "Fine teas".toList)], [("th_price".toList, "Price".toList)]⟩)

/-- The texts of a page that is new to the site. -/
def aboutTexts : Text × PageTexts :=
  ("about".toList, ⟨[("h1".toList, "About us".toList)], [("th_price".toList, "Cost".toList)]⟩)

/-- Two pages may be merged one after the other. -/
theorem merge_batches_pages :
    (Entries.names legalScopes).Nodup ∧ headerName ∉ Entries.names [homeTexts] ∧
      merge (merge legalScopes [homeTexts] [] ["about".toList, "home".toList]) [aboutTexts] []
          ["about".toList, "home".toList] =
        merge legalScopes [homeTexts, aboutTexts] [] ["about".toList, "home".toList] :=
  ⟨by decide, by decide, merge_batches (by decide) (by decide) [aboutTexts] [] _⟩

end Batches

end LocalizedSite.Dictionary
