import LocalizedSite.Proofs.Dictionary.Apart
import LocalizedSite.Proofs.Dictionary.Refresh
import LocalizedSite.Proofs.Dictionary.Store

/-!
# Taking up a refresh that was cut off

A refresh saves one dictionary after another (`Store.saves`), and is cut off by writing the first few
of them only (`Store.CutOff`). What it then leaves is the file as it was or a whole dictionary, and a
refresh that begins there ends as the first one would have (`refresh_resumed`).
-/

namespace LocalizedSite.Store

open Dictionary

variable {σ : Type}

/-- The dictionaries that a refresh saves, in order. -/
def saves (store : Store) (tree : FileTree) (translate : Translator σ) (translator : σ)
    (locale : Locale) (sections : List Text) : List Dictionary :=
  match store.source tree with
  | .error _ => []
  | .ok (source, store) =>
    match store.load tree locale.code with
    | .error _ => []
    | .ok (target, store) =>
      let source := if locale.code = store.sourceCode then none else some source
      match Dictionary.refresh translate translator locale source sections target with
      | .ok state => state.saved.reverse
      | .error state => state.saved.reverse

/-- The files that writing dictionaries leaves behind. -/
def leftBehind : Except (FileError × FileTree) FileTree → FileTree
  | .ok tree => tree
  | .error (_, tree) => tree

/-- Writing a dictionary does not depend on what the store keeps. -/
theorem write_file_congr {first second : Store} (h : first.directory = second.directory) (code : Text)
    (tree : FileTree) (dictionary : Dictionary) :
    first.writeFile tree code dictionary = second.writeFile tree code dictionary := by
  unfold writeFile path
  rw [h]

/-- Writing dictionaries does not depend on what the store keeps. -/
theorem write_all_congr {first second : Store} (h : first.directory = second.directory) (code : Text)
    (tree : FileTree) (dictionaries : List Dictionary) :
    first.writeAll code tree dictionaries = second.writeAll code tree dictionaries := by
  induction dictionaries generalizing tree with
  | nil => rfl
  | cons dictionary others ih =>
      simp only [writeAll, write_file_congr h]
      split
      · exact ih _
      · rfl

/-- Loading changes nothing in the store but that it keeps the dictionary. -/
theorem store_of_load {store next : Store} {tree : FileTree} {code : Text} {dictionary : Dictionary}
    (h : store.load tree code = .ok (dictionary, next)) :
    next = store ∨ next = store.keep code dictionary := by
  unfold load at h
  split at h
  · exact .inl (Prod.mk.inj (Except.ok.inj h)).2.symm
  · obtain ⟨found, -, heq⟩ := map_eq_ok.mp h
    obtain ⟨rfl, rfl⟩ := Prod.mk.inj heq
    exact .inr rfl

/-- Loading keeps the directory of the store. -/
theorem load_directory {store next : Store} {tree : FileTree} {code : Text} {dictionary : Dictionary}
    (h : store.load tree code = .ok (dictionary, next)) : next.directory = store.directory := by
  rcases store_of_load h with rfl | rfl
  · rfl
  · rfl

/-- A refresh leaves behind what writing the dictionaries that it saves leaves behind. -/
theorem refresh_tree_eq (store : Store) (tree : FileTree) (translate : Translator σ) (translator : σ)
    (locale : Locale) (sections : List Text) :
    (store.refresh tree translate translator locale sections).tree =
      leftBehind (store.writeAll locale.code tree
        (store.saves tree translate translator locale sections)) := by
  unfold refresh saves
  cases hsource : store.source tree with
  | error fault => rfl
  | ok found =>
      obtain ⟨source, kept⟩ := found
      simp only
      cases hload : kept.load tree locale.code with
      | error fault => rfl
      | ok found =>
          obtain ⟨target, loaded⟩ := found
          have hdirectory : loaded.directory = store.directory :=
            (load_directory hload).trans (load_directory hsource)
          simp only
          cases hrefresh : Dictionary.refresh translate translator locale
              (if locale.code = loaded.sourceCode then none else some source) sections target with
          | error state =>
              simp only
              rw [write_all_congr hdirectory]
              cases store.writeAll locale.code tree state.saved.reverse with
              | error stopped => rfl
              | ok after => rfl
          | ok state =>
              simp only
              rw [write_all_congr hdirectory]
              cases store.writeAll locale.code tree state.saved.reverse with
              | error stopped => rfl
              | ok after => rfl

/-- A refresh is cut off after some of the dictionaries that it saves are written. -/
def CutOff (store : Store) (tree : FileTree) (translate : Translator σ) (translator : σ)
    (locale : Locale) (sections : List Text) (cut : FileTree) : Prop :=
  ∃ count, store.writeAll locale.code tree
    ((store.saves tree translate translator locale sections).take count) = .ok cut

/-- A dictionary that the store does not have is read. -/
theorem load_read {store : Store} {tree : FileTree} {code : Text} {dictionary : Dictionary}
    (hcache : Entries.get? store.cache code = none) (h : store.read tree code = .ok dictionary) :
    store.load tree code = .ok (dictionary, store.keep code dictionary) := by
  unfold load
  rw [hcache, h]
  rfl

/-- A refresh of a locale that is not the source, whose dictionaries are loaded. -/
theorem refresh_loaded {store kept loaded : Store} {tree : FileTree} {translate : Translator σ}
    {translator : σ} {locale : Locale} {sections : List Text} {source target : Dictionary}
    {state : RefreshState σ} (hsource : store.source tree = .ok (source, kept))
    (htarget : kept.load tree locale.code = .ok (target, loaded))
    (hcode : locale.code ≠ loaded.sourceCode)
    (hstate : Dictionary.refresh translate translator locale (some source) sections target =
      .ok state) :
    store.saves tree translate translator locale sections = state.saved.reverse ∧
      (store.refresh tree translate translator locale sections).result.isOk =
        (store.writeAll locale.code tree state.saved.reverse).isOk := by
  have hdirectory : loaded.directory = store.directory :=
    (load_directory htarget).trans (load_directory hsource)
  unfold saves refresh
  simp only [hsource, htarget, if_neg hcode, hstate]
  refine ⟨trivial, ?_⟩
  rw [write_all_congr hdirectory]
  cases store.writeAll locale.code tree state.saved.reverse with
  | error stopped => rfl
  | ok after => rfl

section Resuming

variable {directory : FilePath} {sourceCode : Text} {tree : FileTree} {translate : Translator σ}
  {locale : Locale} {source target : Dictionary}
  {answer : Text → Except TranslationFault (Entries Json)}

/-- The dictionary that some of the scopes leave in a refresh. -/
def refreshed (answer : Text → Except TranslationFault (Entries Json)) (locale : Locale)
    (source target : Dictionary) (scopes : List Text) : Dictionary :=
  advanceAll answer source (withHeader locale target) scopes

/-- A refresh with a fresh store saves what some of the first scopes leave, in the end what all of them
leave, and succeeds if this can be written. -/
theorem refresh_fresh (hcode : locale.code ≠ sourceCode)
    (hsource : (fresh directory sourceCode).read tree sourceCode = .ok source)
    (htarget : (fresh directory sourceCode).read tree locale.code = .ok target)
    (hscopes : ∀ name value, Entries.get? target name = some value → name ≠ headerName →
      value.members?.isSome = true)
    (hanswers : Answers translate locale source answer) (translator : σ) (sections : List Text) :
    let store := fresh directory sourceCode
    let scopes := requestedScopes sections source
    (∀ dictionary ∈ store.saves tree translate translator locale sections,
      ∃ done others, scopes = done ++ others ∧
        dictionary = refreshed answer locale source target done) ∧
      (store.refresh tree translate translator locale sections).tree =
        (match store.writeFile tree locale.code (refreshed answer locale source target scopes) with
        | .ok after => after
        | .error _ => tree) ∧
      (store.refresh tree translate translator locale sections).result.isOk =
        (store.writeFile tree locale.code (refreshed answer locale source target scopes)).isOk := by
  intro store scopes
  obtain ⟨state, hrefresh, hstate, hhead, hsaved⟩ :=
    refresh_spec hanswers translator sections (HoldsScopes.with_header hscopes locale)
  have hfirst : store.source tree = .ok (source, store.keep sourceCode source) :=
    load_read rfl hsource
  have hcache : Entries.get? (store.keep sourceCode source).cache locale.code = none := by
    show Entries.get? [(sourceCode, source)] locale.code = none
    rw [Entries.get_cons, if_neg hcode]
    rfl
  have hsecond : (store.keep sourceCode source).load tree locale.code =
      .ok (target, (store.keep sourceCode source).keep locale.code target) :=
    load_read hcache htarget
  obtain ⟨hsaves, hok⟩ := refresh_loaded hfirst hsecond hcode hrefresh
  obtain ⟨tail, htail⟩ := List.head?_eq_some_iff.mp hhead
  have hwritten : store.writeAll locale.code tree state.saved.reverse =
      match store.writeFile tree locale.code (refreshed answer locale source target scopes) with
      | .ok after => .ok after
      | .error error => .error (error, tree) := by
    rw [htail, List.reverse_cons, write_all_append, hstate]
    rfl
  refine ⟨fun dictionary hmem ↦ ?_, ?_, ?_⟩
  · rw [hsaves] at hmem
    exact hsaved dictionary (List.mem_reverse.mp hmem)
  · rw [refresh_tree_eq, hsaves, hwritten]
    cases store.writeFile tree locale.code (refreshed answer locale source target scopes) with
    | error error => rfl
    | ok after => rfl
  · rw [hok, hwritten]
    cases store.writeFile tree locale.code (refreshed answer locale source target scopes) with
    | error error => rfl
    | ok after => rfl

/-- What some of the scopes leave is well-formed and consists of objects. -/
theorem refreshed_spec
    (hwell : ∀ scope entries, answer scope = .ok entries → Json.WellFormed (.object entries))
    (htarget : Json.WellFormed (.object target))
    (hscopes : ∀ name value, Entries.get? target name = some value → name ≠ headerName →
      value.members?.isSome = true) (scopes : List Text) :
    Json.WellFormed (.object (refreshed answer locale source target scopes)) ∧
      HoldsScopes (refreshed answer locale source target scopes) :=
  ⟨advance_all_well_formed hwell (put_well_formed htarget _ (header_well_formed locale)) scopes,
    (HoldsScopes.with_header hscopes locale).advance_all scopes⟩

/-- A refresh of what some of the first scopes left ends as the refresh of the whole. -/
theorem refreshed_resumed (done others : List Text) :
    refreshed answer locale source (refreshed answer locale source target done) (done ++ others) =
      refreshed answer locale source target (done ++ others) :=
  advance_all_resumed (get_with_header locale target) done others

/-- A refresh that is cut off anywhere between two writes leaves the files as they were or a whole
dictionary in the file of the locale. Taken up again with a fresh store it ends with the same files as
the refresh that was not cut off, and succeeds exactly if that one does; if the file can be written at
all, both end with the dictionary that the scopes leave. The translator may be in any state when the
refresh is taken up, but it answers each scope as before. -/
theorem refresh_resumed (hcode : locale.code ≠ sourceCode)
    (hapart : (fresh directory sourceCode).Apart tree locale.code)
    (hsource : (fresh directory sourceCode).read tree sourceCode = .ok source)
    (htarget : (fresh directory sourceCode).read tree locale.code = .ok target)
    (hscopes : ∀ name value, Entries.get? target name = some value → name ≠ headerName →
      value.members?.isSome = true)
    (hanswers : Answers translate locale source answer)
    (hwell : ∀ scope entries, answer scope = .ok entries → Json.WellFormed (.object entries))
    (sections : List Text) (translator later : σ) {cut : FileTree}
    (hcut : (fresh directory sourceCode).CutOff tree translate translator locale sections cut) :
    let store := fresh directory sourceCode
    let whole := store.refresh tree translate translator locale sections
    let resumed := store.refresh cut translate later locale sections
    (cut = tree ∨ ∃ members,
      cut.readText (store.path locale.code) = .ok (fileText (.object members)) ∧
        Json.parse (fileText (.object members)) = .ok (.object members)) ∧
      resumed.tree = whole.tree ∧ resumed.result.isOk = whole.result.isOk ∧
      ∀ dictionary after, store.writeFile tree locale.code dictionary = .ok after →
        whole.result.isOk = true ∧ whole.tree.readText (store.path locale.code) =
          .ok (fileText (.object
            (refreshed answer locale source target (requestedScopes sections source)))) := by
  intro store whole resumed
  obtain ⟨hsaves, hwhole, hwholeOk⟩ :=
    refresh_fresh hcode hsource htarget hscopes hanswers translator sections
  have hends : ∀ dictionary after, store.writeFile tree locale.code dictionary = .ok after →
      whole.result.isOk = true ∧ whole.tree.readText (store.path locale.code) =
        .ok (fileText (.object
          (refreshed answer locale source target (requestedScopes sections source)))) := by
    intro dictionary after hwrite
    obtain ⟨final, hfinal⟩ := write_file_ok hwrite
      (refreshed answer locale source target (requestedScopes sections source))
    rw [hfinal] at hwhole hwholeOk
    obtain ⟨hfile, -⟩ : Json.WellFormed (.object
        (refreshed answer locale source target (requestedScopes sections source))) ∧ HoldsScopes _ :=
      refreshed_spec hwell (read_well_formed htarget) hscopes (requestedScopes sections source)
    refine ⟨hwholeOk, ?_⟩
    rw [hwhole]
    exact read_text_of_write_file hfile hfinal
  obtain ⟨count, hwritten⟩ := hcut
  rcases write_all_cases hwritten with rfl | ⟨dictionary, hmem, hwrite⟩
  · obtain ⟨-, hresumed, hresumedOk⟩ :=
      refresh_fresh hcode hsource htarget hscopes hanswers later sections
    exact ⟨.inl rfl, hresumed.trans hwhole.symm, hresumedOk.trans hwholeOk.symm, hends⟩
  · obtain ⟨done, others, hdone, rfl⟩ := hsaves dictionary (List.mem_of_mem_take hmem)
    obtain ⟨hfile, hholds⟩ : Json.WellFormed (.object (refreshed answer locale source target done)) ∧
        HoldsScopes (refreshed answer locale source target done) :=
      refreshed_spec hwell (read_well_formed htarget) hscopes done
    have hsource' : store.read cut sourceCode = .ok source := by
      rw [← hsource]
      exact hapart _ _ hwrite
    obtain ⟨-, hresumed, hresumedOk⟩ :=
      refresh_fresh hcode hsource' (read_of_write_file hfile hwrite)
        (fun name value hget _ ↦ hholds name value hget) hanswers later sections
    rw [hdone, refreshed_resumed, ← hdone, write_file_again hwrite] at hresumed hresumedOk
    refine ⟨.inr ⟨_, read_text_of_write_file hfile hwrite, Json.parse_dump hfile⟩, ?_,
      hresumedOk.trans hwholeOk.symm, hends⟩
    obtain ⟨after, hlast⟩ := write_file_ok hwrite
      (refreshed answer locale source target (requestedScopes sections source))
    rw [hwhole, hresumed, hlast]

/-- A refresh that is cut off when the first of two scopes is translated, and the second of which the
translator refuses. -/
theorem refresh_resumed_teas :
    let german : Locale := ⟨"de".toList, "de/".toList, "de_DE".toList, "de".toList, "de".toList,
      "Deutsch".toList, [], none, []⟩
    let source : Dictionary := [("home".toList, .object [("h1".toList, .string "Teas".toList)]),
      ("about".toList, .object [("h1".toList, .string "About us".toList)])]
    let home : Entries Json := [("h1".toList, .string "Tees".toList)]
    let answer (scope : Text) : Except TranslationFault (Entries Json) :=
      if scope = "home".toList then .ok home else .error (.failed "busy".toList)
    let translate : Translator Nat := fun asked scope _ _ ↦ (answer scope, asked + 1)
    let place : Location := ["work".toList, "locales".toList]
    let tree : FileTree := ⟨["work".toList], [(["work".toList], .directory), (place, .directory),
      (place ++ ["en.json".toList], .file (.text (fileText (.object source))))]⟩
    let cut := tree.setNode (place ++ ["de.json".toList]) (.file (.text (fileText (.object
      [(headerName, ofTexts german.header), ("home".toList, .object home)]))))
    let store := fresh (FilePath.ofText "locales".toList) "en".toList
    store.CutOff tree translate 0 german [] cut ∧
      (store.refresh cut translate 1 german []).tree =
        (store.refresh tree translate 0 german []).tree ∧
      (store.refresh tree translate 0 german []).tree.readText (store.path german.code) =
        .ok (fileText (.object
          [(headerName, ofTexts german.header), ("home".toList, .object home)])) := by
  intro german source home answer translate place tree cut store
  have hclosed : tree.IsClosed := by
    refine FileTree.is_closed_of_nodes fun entry hentry ↦ ?_
    rcases List.mem_cons.mp hentry with rfl | hentry
    · rfl
    rcases List.mem_cons.mp hentry with rfl | hentry
    · rfl
    rw [List.mem_singleton.mp hentry]
    rfl
  have hapart : store.Apart tree german.code :=
    apart_of_plain hclosed (by decide) (by decide) (by decide) (.inl rfl)
  have hsource : store.read tree "en".toList = .ok source := rfl
  have htarget : store.read tree german.code = .ok [] := rfl
  have hanswers : Answers translate german source answer := fun _ _ _ _ ↦ rfl
  have hwell : ∀ scope entries, answer scope = .ok entries → Json.WellFormed (.object entries) := by
    intro scope entries h
    simp only [answer] at h
    split at h
    · obtain rfl := Except.ok.inj h
      refine .object (by simp [home, Entries.names]) fun member hmem ↦ ?_
      rw [List.mem_singleton.mp hmem]
      exact .string _
    · exact absurd h (by simp)
  have hcut : store.CutOff tree translate 0 german [] cut := ⟨1, rfl⟩
  obtain ⟨-, hsame, -, hends⟩ := refresh_resumed (by decide) hapart hsource htarget (by simp)
    hanswers hwell [] 0 1 hcut
  exact ⟨hcut, hsame, (hends [] _ rfl).2⟩

end Resuming

end LocalizedSite.Store
