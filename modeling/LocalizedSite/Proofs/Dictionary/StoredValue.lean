import LocalizedSite.Proofs.Dictionary.Account

/-!
# Refreshing whatever is stored

A dictionary file may hold any value under a scope, and a refresh decides by counting whether the scope is
complete. A value that cannot be counted stops the refresh (`Uncountable`), and one that is no mapping
passes for a translation if the count is right (`Counterfeit`). `Store.refresh_copes_iff` says that
nothing else goes wrong.
-/

namespace LocalizedSite

namespace Dictionary

variable {σ : Type} {translate : Translator σ} {locale : Locale} {source target : Dictionary}

/-- A value that is not empty and has nothing in it that could be counted. -/
inductive Uncountable : Json → Prop
  | truth : Uncountable (.boolean true)
  | integer {value : Int} (h : value ≠ 0) : Uncountable (.integer value)
  | float {value : Binary64} (h : value.isZero = false) : Uncountable (.float value)

/-- A text or list that is not empty, with as many characters or items as a scope has entries. -/
inductive Counterfeit (count : Nat) : Json → Prop
  | string {value : Text} (hne : value ≠ []) (h : value.length = count) : Counterfeit count (.string value)
  | array {items : List Json} (hne : items ≠ []) (h : items.length = count) :
    Counterfeit count (.array items)

section Completeness

variable {entries : Entries Json}

/-- A value that can be counted is complete if it is not empty and its size is that of the scope. -/
theorem is_complete_of_size {value : Json} {size : Nat} (h : size? value = some size) :
    isComplete? entries (some value) = some true ↔
      value.isEmptyValue = false ∧ size = entries.length := by
  simp only [isComplete?, h, Option.map_some]
  cases value.isEmptyValue <;> simp

/-- A value that cannot be counted is compared only if it is empty. -/
theorem is_complete_of_no_size {value : Json} (h : size? value = none) :
    isComplete? entries (some value) ≠ some true ∧
      (isComplete? entries (some value) = none ↔ value.isEmptyValue = false) := by
  simp only [isComplete?, h, Option.map_none]
  cases value.isEmptyValue <;> simp

/-- A refresh cannot tell whether a scope is complete exactly if the value cannot be counted. -/
theorem is_complete_eq_none_iff {value : Json} :
    isComplete? entries (some value) = none ↔ Uncountable value := by
  cases value with
  | null => exact iff_of_false (by simp [isComplete?, Json.isEmptyValue]) (by rintro ⟨⟩)
  | boolean value =>
      cases value with
      | true => exact iff_of_true rfl .truth
      | false => exact iff_of_false (by simp [isComplete?, Json.isEmptyValue]) (by rintro ⟨⟩)
  | integer value =>
      have hempty : Json.isEmptyValue (.integer value) = false ↔ value ≠ 0 := by
        simp [Json.isEmptyValue]
      exact (is_complete_of_no_size rfl).2.trans (hempty.trans ⟨.integer, fun hvalue ↦ by
        cases hvalue with
        | integer h => exact h⟩)
  | float value =>
      exact (is_complete_of_no_size rfl).2.trans ⟨.float, fun hvalue ↦ by
        cases hvalue with
        | float h => exact h⟩
  | string value | array items | object members =>
      refine iff_of_false ?_ (by rintro ⟨⟩)
      simp only [isComplete?, size?, Option.map_some]
      split <;> simp

/-- A scope is complete exactly if the value is a mapping with as many entries, and not without entries,
or a text or list that passes for one. -/
theorem is_complete_eq_true_iff {value : Json} :
    isComplete? entries (some value) = some true ↔
      (∃ members, value = .object members ∧ members ≠ [] ∧ members.length = entries.length) ∨
        Counterfeit entries.length value := by
  cases value with
  | null | boolean value | integer value | float value =>
      exact iff_of_false (is_complete_of_no_size rfl).1 (by
        rintro (⟨members, ⟨⟩, -⟩ | hvalue)
        cases hvalue)
  | string value =>
      rw [is_complete_of_size rfl, Json.isEmptyValue, List.isEmpty_eq_false_iff]
      refine ⟨fun h ↦ .inr (.string h.1 h.2), ?_⟩
      rintro (⟨members, ⟨⟩, -⟩ | hvalue)
      cases hvalue with
      | string hne h => exact ⟨hne, h⟩
  | array items =>
      rw [is_complete_of_size rfl, Json.isEmptyValue, List.isEmpty_eq_false_iff]
      refine ⟨fun h ↦ .inr (.array h.1 h.2), ?_⟩
      rintro (⟨members, ⟨⟩, -⟩ | hvalue)
      cases hvalue with
      | array hne h => exact ⟨hne, h⟩
  | object members =>
      rw [is_complete_of_size rfl, Json.isEmptyValue, List.isEmpty_eq_false_iff]
      refine ⟨fun h ↦ .inl ⟨members, rfl, h⟩, ?_⟩
      rintro (⟨found, ⟨⟩, h⟩ | hvalue)
      · exact h
      · cases hvalue

/-- A scope stands as it does because of the value that the target holds for it, unless it is stale. -/
theorem standing_eq_iff {scope : Text} {complete : Option Bool} (hcomplete : complete ≠ some false) :
    standing? source target scope = some complete ↔ ∃ entries value,
      source.scope? scope = some entries ∧ Entries.get? target scope = some value ∧
        isComplete? entries (some value) = complete := by
  constructor
  · intro hstanding
    obtain ⟨entries, hscope, hheld⟩ := Option.map_eq_some_iff.mp hstanding
    cases hget : Entries.get? target scope with
    | none =>
        rw [hget] at hheld
        exact absurd hheld.symm hcomplete
    | some value =>
        rw [hget] at hheld
        exact ⟨entries, value, hscope, rfl, hheld⟩
  · rintro ⟨entries, value, hscope, hget, hvalue⟩
    rw [standing?, hscope, hget]
    exact congrArg some hvalue

/-- A scope cannot be compared exactly if the target holds a value for it that cannot be counted. -/
theorem standing_eq_incomparable_iff {scope : Text} :
    standing? source target scope = some none ↔ ∃ entries value,
      source.scope? scope = some entries ∧ Entries.get? target scope = some value ∧
        Uncountable value := by
  rw [standing_eq_iff (by simp)]
  simp only [is_complete_eq_none_iff]

/-- A scope is complete exactly if the target holds a mapping with as many entries for it, and not without
entries, or something that passes for one. -/
theorem is_finished_iff {scope : Text} :
    isFinished source target scope = true ↔ ∃ entries value,
      source.scope? scope = some entries ∧ Entries.get? target scope = some value ∧
        ((∃ members, value = .object members ∧ members ≠ [] ∧ members.length = entries.length) ∨
          Counterfeit entries.length value) := by
  unfold isFinished
  rw [beq_iff_eq, standing_eq_iff (by simp)]
  simp only [is_complete_eq_true_iff]

/-- The scopes to translate are the objects under names other than the header's. -/
theorem mem_translatable_iff (hwell : Json.WellFormed (.object source)) {scope : Text} :
    scope ∈ translatableScopes source ↔
      scope ≠ headerName ∧ ∃ entries, source.scope? scope = some entries := by
  refine ⟨scope_of_mem_translatable hwell, fun ⟨hheader, entries, hscope⟩ ↦ ?_⟩
  obtain ⟨value, hget, hmembers⟩ := Option.bind_eq_some_iff.mp hscope
  refine List.mem_map.mpr ⟨(scope, value), List.mem_filter.mpr ⟨Entries.mem_of_get hget, ?_⟩, rfl⟩
  simp [hheader, hmembers]

end Completeness

/-- The complete scopes among those to translate are all mappings with as many entries as the source
exactly if nothing passes for one. -/
theorem skipped_match_iff (hwell : Json.WellFormed (.object source)) :
    (∀ scope ∈ (translatableScopes source).filter (isFinished source target),
      Matches source target scope) ↔
      ∀ scope entries value, scope ≠ headerName → source.scope? scope = some entries →
        Entries.get? target scope = some value → ¬ Counterfeit entries.length value := by
  constructor
  · intro h scope entries value hheader hscope hget hvalue
    have hfinished : isFinished source target scope = true :=
      is_finished_iff.mpr ⟨entries, value, hscope, hget, .inr hvalue⟩
    obtain ⟨_, members, -, hobject, -⟩ := h scope (List.mem_filter.mpr
      ⟨(mem_translatable_iff hwell).mpr ⟨hheader, entries, hscope⟩, hfinished⟩)
    obtain rfl := Option.some.inj (hget.symm.trans hobject)
    cases hvalue
  · intro h scope hmem
    obtain ⟨hmem, hfinished⟩ := List.mem_filter.mp hmem
    obtain ⟨entries, value, hscope, hget, hvalue⟩ := is_finished_iff.mp hfinished
    obtain ⟨members, rfl, -, hlength⟩ :=
      hvalue.resolve_right (h scope entries value (scope_of_mem_translatable hwell hmem).1 hscope hget)
    exact ⟨entries, members, hscope, hget, hlength⟩

/-- Among scopes of which some cannot be compared there is a first one. -/
theorem exists_first_incomparable {scopes : List Text}
    (h : ∃ scope ∈ scopes, standing? source target scope = some none) :
    ∃ first scope others, scopes = first ++ scope :: others ∧
      standing? source target scope = some none ∧
      ∀ other ∈ first, standing? source target other ≠ some none := by
  have hfound : (scopes.find? (standing? source target · == some none)).isSome = true := by
    simpa [List.find?_isSome] using h
  obtain ⟨scope, hscope⟩ := Option.isSome_iff_exists.mp hfound
  obtain ⟨hhere, first, others, hscopes, hfirst⟩ := List.find?_eq_some_iff_append.mp hscope
  exact ⟨first, scope, others, hscopes, by simpa using hhere, by simpa using hfirst⟩

/-- A refresh with a scope that cannot be compared stops there, and accounts for the scopes before it. -/
theorem refresh_stopped {code : Text} (hmappings : AnswersMappings translate locale)
    (hsame : locale.code = code → target = source) (hwell : Json.WellFormed (.object target))
    {sections first others : List Text} {scope : Text}
    (hrequested : requestedScopes sections source = first ++ scope :: others)
    (hheader : headerName ∉ requestedScopes sections source)
    (hnodup : (requestedScopes sections source).Nodup)
    (hcomparable : ∀ other ∈ first, standing? source target other ≠ some none)
    (hincomparable : standing? source target scope = some none) (translator : σ) :
    ∃ state, refresh translate.recorded (translator, []) locale (Store.sourceFor code locale source)
        sections target = .error state ∧
      Recording locale source target first state := by
  rw [hrequested] at hheader hnodup
  obtain ⟨final, hfinal, hend⟩ := (Recording.start locale source hwell translator).run_stop hmappings
    hsame hheader hnodup hcomparable hincomparable
  refine ⟨final, ?_, hend⟩
  unfold refresh
  simp only [Store.requested_of_source_for hsame, hrequested]
  rw [hfinal]
  rfl

end Dictionary

namespace Store

open Dictionary

variable {σ : Type} {translate : Translator σ} {locale : Locale}

section Coping

variable {store : Store} {tree written : FileTree} {source target : Dictionary}

/-- A refresh whose file can be written and whose scopes can be compared gives a report, with the scopes
that are complete as the ones that it skipped. -/
theorem refresh_reports (hsource : store.Gives tree store.sourceCode source)
    (htarget : store.Gives tree locale.code target)
    (hwellSource : Json.WellFormed (.object source)) (hwellTarget : Json.WellFormed (.object target))
    (hmappings : AnswersMappings translate locale)
    (hwritten : store.writeFile tree locale.code target = .ok written)
    (hcomparable : ∀ scope ∈ translatableScopes source, standing? source target scope ≠ some none)
    (translator : σ) :
    ∃ report, (store.refresh tree translate translator locale []).result = .ok report ∧
      report.skipped = (translatableScopes source).filter (isFinished source target) := by
  obtain ⟨hsame, kept, loaded, hkept, hloaded, -⟩ := load_both hsource htarget
  obtain ⟨hrequested, hheader⟩ :=
    requested_scopes_spec hwellSource List.nodup_nil (List.not_mem_nil : headerName ∉ [])
  obtain ⟨state, hstate, hrecording, hlast⟩ :=
    refresh_recording hmappings hsame hwellTarget hheader hrequested hcomparable translator
  obtain ⟨earlier, hsaved⟩ := List.head?_eq_some_iff.mp hlast
  obtain ⟨after, hafter⟩ := write_file_ok hwritten state.target
  refine ⟨state.report, ?_, hrecording.account.skipped⟩
  rw [refresh_recorded store tree translator [] [], refresh_eq hkept hloaded hstate, hsaved,
    List.reverse_cons, write_all_append, hafter]

/-- A refresh that meets a scope that cannot be compared gives no report. Nothing is written if the
translator was not asked before; otherwise the file holds what the scopes before came to. -/
theorem refresh_gives_up (hsource : store.Gives tree store.sourceCode source)
    (htarget : store.Gives tree locale.code target)
    (hwellSource : Json.WellFormed (.object source)) (hwellTarget : Json.WellFormed (.object target))
    (hmappings : AnswersMappings translate locale)
    (hwritten : store.writeFile tree locale.code target = .ok written)
    {first others : List Text} {scope : Text}
    (hscopes : translatableScopes source = first ++ scope :: others)
    (hcomparable : ∀ other ∈ first, standing? source target other ≠ some none)
    (hincomparable : standing? source target scope = some none) (translator : σ) :
    let recorded := store.refresh tree translate.recorded (translator, []) locale []
    recorded.result = .error .incomparable ∧ ∃ final report,
      Accounts locale source target first final report recorded.translator.2 ∧
        (recorded.translator.2 = [] ∧ recorded.tree = tree ∨
          store.read recorded.tree locale.code = .ok final) := by
  intro recorded
  obtain ⟨hsame, kept, loaded, hkept, hloaded, -⟩ := load_both hsource htarget
  obtain ⟨hrequested, hheader⟩ :=
    requested_scopes_spec hwellSource List.nodup_nil (List.not_mem_nil : headerName ∉ [])
  have hstops : requestedScopes [] source = first ++ scope :: others := hscopes
  obtain ⟨state, hstate, hrecording⟩ := Dictionary.refresh_stopped hmappings hsame hwellTarget hstops
    hheader hrequested hcomparable hincomparable translator
  have hrecorded := refresh_stopped_eq hkept hloaded hstate
  -- Each call of the translator is followed by a write, so without a call the files are as they were.
  rcases hrecording.last with hlast | ⟨hnone, htranslated, hfailed⟩
  · obtain ⟨earlier, hsaved⟩ := List.head?_eq_some_iff.mp hlast
    obtain ⟨after, hafter⟩ := write_file_ok hwritten state.target
    rw [hsaved, List.reverse_cons, write_all_append, hafter] at hrecorded
    rw [show recorded = _ from hrecorded]
    exact ⟨rfl, state.target, state.report, hrecording.account,
      .inr (read_of_write_file hrecording.well hafter)⟩
  · rw [hnone] at hrecorded
    rw [show recorded = _ from hrecorded]
    exact ⟨rfl, state.target, state.report, hrecording.account,
      .inl ⟨hrecording.account.calls_eq_nil htranslated hfailed, rfl⟩⟩

/-- A refresh over all scopes of the source, whose file can be written. It gives a report exactly if no
value stored for a scope is uncountable; the scopes that it then reports as complete are mappings with as
many entries as the source exactly if no stored value passes for one without being a mapping. At the first
uncountable value it stops, and leaves what the scopes before came to. -/
theorem refresh_copes_iff (hsource : store.Gives tree store.sourceCode source)
    (htarget : store.Gives tree locale.code target)
    (hwellSource : Json.WellFormed (.object source)) (hwellTarget : Json.WellFormed (.object target))
    (hmappings : AnswersMappings translate locale)
    (hwritten : store.writeFile tree locale.code target = .ok written) (translator : σ) :
    let refreshed := store.refresh tree translate translator locale []
    let recorded := store.refresh tree translate.recorded (translator, []) locale []
    ((∃ report, refreshed.result = .ok report) ↔
      ∀ scope entries value, scope ≠ headerName → source.scope? scope = some entries →
        Entries.get? target scope = some value → ¬ Uncountable value) ∧
      (∀ report, refreshed.result = .ok report →
        ((∀ scope ∈ report.skipped, Matches source target scope) ↔
          ∀ scope entries value, scope ≠ headerName → source.scope? scope = some entries →
            Entries.get? target scope = some value → ¬ Counterfeit entries.length value)) ∧
      ∀ first scope others, translatableScopes source = first ++ scope :: others →
        (∀ other ∈ first, standing? source target other ≠ some none) →
        standing? source target scope = some none →
        refreshed.result = .error .incomparable ∧ ∃ final report,
          Accounts locale source target first final report recorded.translator.2 ∧
            (recorded.translator.2 = [] ∧ refreshed.tree = tree ∨
              store.read refreshed.tree locale.code = .ok final) := by
  intro refreshed recorded
  -- The record of the calls changes nothing else.
  have hrefreshed : refreshed = ⟨recorded.result, recorded.translator.1, recorded.tree, recorded.store⟩ :=
    refresh_recorded store tree translator [] []
  have hgives {first others : List Text} {scope : Text}
      (hscopes : translatableScopes source = first ++ scope :: others) :=
    refresh_gives_up hsource htarget hwellSource hwellTarget hmappings hwritten hscopes
  have hreports (hcomparable : ∀ scope ∈ translatableScopes source,
      standing? source target scope ≠ some none) :=
    refresh_reports hsource htarget hwellSource hwellTarget hmappings hwritten hcomparable translator
  have hcomparable_iff : (∀ scope ∈ translatableScopes source,
      standing? source target scope ≠ some none) ↔
        ∀ scope entries value, scope ≠ headerName → source.scope? scope = some entries →
          Entries.get? target scope = some value → ¬ Uncountable value := by
    simp only [mem_translatable_iff hwellSource, Ne, standing_eq_incomparable_iff]
    exact ⟨fun h scope entries value hheader hscope hget hvalue ↦
        h scope ⟨hheader, entries, hscope⟩ ⟨entries, value, hscope, hget, hvalue⟩,
      fun h scope hmem ⟨entries, value, hscope, hget, hvalue⟩ ↦
        h scope entries value hmem.1 hscope hget hvalue⟩
  have hok_iff : (∃ report, refreshed.result = .ok report) ↔
      ∀ scope ∈ translatableScopes source, standing? source target scope ≠ some none := by
    refine ⟨fun ⟨report, hreport⟩ ↦ ?_, fun hcomparable ↦ ?_⟩
    -- At the first scope that cannot be compared the refresh gives no report.
    · by_contra hsome
      push Not at hsome
      obtain ⟨first, scope, others, hscopes, hincomparable, hfirst⟩ :=
        exists_first_incomparable hsome
      have hstopped := (hgives hscopes hfirst hincomparable translator).1
      rw [hrefreshed] at hreport
      exact absurd (hreport.symm.trans hstopped) (by simp)
    · obtain ⟨report, hreport, -⟩ := hreports hcomparable
      exact ⟨report, hreport⟩
  refine ⟨hok_iff.trans hcomparable_iff, fun report hreport ↦ ?_,
    fun first scope others hscopes hfirst hincomparable ↦ ?_⟩
  · obtain ⟨other, hother, hskipped⟩ := hreports (hok_iff.mp ⟨report, hreport⟩)
    obtain rfl := Except.ok.inj (hother.symm.trans hreport)
    rw [hskipped]
    exact skipped_match_iff hwellSource
  · obtain ⟨hresult, hleft⟩ := hgives hscopes hfirst hincomparable translator
    rw [hrefreshed]
    exact ⟨hresult, hleft⟩

/-- A list with one item passes for a scope with one entry. -/
theorem refresh_copes_iff_list :
    let german : Locale := ⟨"de".toList, "de/".toList, "de_DE".toList, "de".toList, "de".toList,
      "Deutsch".toList, [], none, []⟩
    let source : Dictionary := [("home".toList, .object [("h1".toList, .string "Teas".toList)])]
    let target : Dictionary := [("home".toList, .array [.null])]
    let translate : Translator Unit := fun _ _ _ _ ↦ (.error .unexpectedReply, ())
    let place : Location := ["work".toList, "locales".toList]
    let tree : FileTree := ⟨["work".toList], [(["work".toList], .directory), (place, .directory)]⟩
    let store : Store := ⟨FilePath.ofText "locales".toList, "en".toList,
      [("en".toList, source), ("de".toList, target)]⟩
    (store.refresh tree translate () german []).result = .ok ⟨[], ["home".toList], [], []⟩ ∧
      ¬ Matches source target "home".toList := by
  intro german source target translate place tree store
  have hwellSource : Json.WellFormed (.object source) := by
    refine .object (List.nodup_singleton _) fun member hmem ↦ ?_
    rw [List.mem_singleton.mp hmem]
    refine .object (List.nodup_singleton _) fun member hmem ↦ ?_
    rw [List.mem_singleton.mp hmem]
    exact .string _
  have hwellTarget : Json.WellFormed (.object target) := by
    refine .object (List.nodup_singleton _) fun member hmem ↦ ?_
    rw [List.mem_singleton.mp hmem]
    refine .array fun item hitem ↦ ?_
    rw [List.mem_singleton.mp hitem]
    exact .null
  have hmappings : AnswersMappings translate german :=
    fun _ _ _ _ hanswer ↦ absurd hanswer (by simp [translate])
  have hran : (store.refresh tree translate () german []).result =
      .ok ⟨[], ["home".toList], [], []⟩ := by decide +kernel
  have hsource : store.Gives tree store.sourceCode source := .inl rfl
  have htarget : store.Gives tree german.code target := .inl rfl
  obtain ⟨-, hskipped, -⟩ :=
    refresh_copes_iff hsource htarget hwellSource hwellTarget hmappings rfl ()
  refine ⟨hran, fun hmatches ↦ ?_⟩
  refine (hskipped _ hran).mp (fun scope hmem ↦ ?_) "home".toList
    [("h1".toList, .string "Teas".toList)] (.array [.null]) (by decide) rfl rfl
    (.array (by simp) rfl)
  rw [List.mem_singleton.mp hmem]
  exact hmatches

end Coping

end Store

end LocalizedSite
