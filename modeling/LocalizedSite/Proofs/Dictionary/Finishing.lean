import LocalizedSite.Proofs.Dictionary.Refresh

/-!
# A refresh that comes to its end

A translator that answers every scope with its keys (`Translates`) is never refused. A refresh of
scopes of the source then leaves as many entries under each of them as the source has
(`refresh_finishes`).
-/

namespace LocalizedSite.Dictionary

variable {σ : Type}

/-- The translator answers every scope with a mapping of exactly its keys, whatever its state is. -/
def Translates (translate : Translator σ) (locale : Locale) : Prop :=
  ∀ state scope entries, ∃ translation,
    (translate state scope entries locale).1 = .ok translation ∧
      Json.WellFormed (.object translation) ∧
      ∀ key, key ∈ Entries.names translation ↔ key ∈ Entries.names entries

/-- Whether a scope of the source has no entries. -/
def isBare (source : Dictionary) (scope : Text) : Bool :=
  (source.scope? scope).any List.isEmpty

/-- The target holds as many entries under a scope as the source. -/
def Matches (source target : Dictionary) (scope : Text) : Prop :=
  ∃ entries members, source.scope? scope = some entries ∧
    Entries.get? target scope = some (.object members) ∧ members.length = entries.length

variable {translate : Translator σ} {locale : Locale} {source target : Dictionary}

/-- No name is missing from names among which all of them are. -/
theorem names_without_eq_nil {names others : List Text} (h : ∀ name ∈ names, name ∈ others) :
    namesWithout names others = [] := by
  have hnone : names.filter (fun name ↦ !others.contains name) = [] := by
    rw [List.filter_eq_nil_iff]
    intro name hmem
    simp [h name hmem]
  unfold namesWithout
  rw [hnone]
  rfl

/-- A translation with the keys of the source is accepted. -/
theorem check_keys_ok {source result : List Text} (h : ∀ key, key ∈ result ↔ key ∈ source)
    (scope : Text) : checkKeys scope source result = .ok () := by
  unfold checkKeys
  rw [names_without_eq_nil fun key hmem ↦ (h key).mpr hmem,
    names_without_eq_nil fun key hmem ↦ (h key).mp hmem]
  rfl

/-- Mappings with the same keys have the same number of entries. -/
theorem length_eq_of_names {first second : Entries Json} (hfirst : first.names.Nodup)
    (hsecond : second.names.Nodup) (h : ∀ key, key ∈ first.names ↔ key ∈ second.names) :
    first.length = second.length := by
  have hlength := ((List.perm_ext_iff_of_nodup hfirst hsecond).mpr h).length_eq
  simpa [Entries.names] using hlength

/-- A scope of a well-formed dictionary has each key once. -/
theorem names_nodup_of_scope (h : Json.WellFormed (.object source)) {scope : Text}
    {entries : Entries Json} (hscope : source.scope? scope = some entries) :
    entries.names.Nodup := by
  unfold scope? at hscope
  obtain ⟨value, hvalue, hmembers⟩ := Option.bind_eq_some_iff.mp hscope
  cases h with
  | object hnames hall =>
      have hwell := hall _ (Entries.mem_of_get hvalue)
      cases hwell with
      | object hnodup hvalues =>
          obtain rfl := Option.some.inj hmembers
          exact hnodup
      | _ => exact absurd hmembers (by simp [Json.members?])

/-- What becomes of a scope under which the target holds as many entries as the source: it is
complete, unless there are no entries at all. -/
theorem scope_outcome_of_matches (htranslates : Translates translate locale) {scope : Text}
    (h : Matches source target scope) (state : σ) :
    Entries.get? target scope = some (.object []) ∧ isBare source scope = true ∧
        scopeOutcome translate locale source target state scope =
          (.translated [], (translate state scope [] locale).2) ∨
      isBare source scope = false ∧
        scopeOutcome translate locale source target state scope = (.skipped, state) := by
  obtain ⟨entries, members, hscope, hheld, hlength⟩ := h
  unfold scopeOutcome isBare
  simp only [hscope, hheld, isComplete?, Json.isEmptyValue, size?, Option.any_some, Option.map_some]
  cases entries with
  | nil =>
      obtain rfl := List.length_eq_zero_iff.mp hlength
      obtain ⟨translation, hanswer, -, hkeys⟩ := htranslates state scope []
      have hnone : translation = [] := by
        cases translation with
        | nil => rfl
        | cons entry others =>
            exact absurd ((hkeys entry.1).mp (List.mem_cons_self ..)) List.not_mem_nil
      subst hnone
      refine .inl ⟨rfl, rfl, ?_⟩
      simp only [List.isEmpty_nil, if_true, hanswer, check_keys_ok hkeys]
  | cons entry others =>
      cases members with
      | nil => exact absurd hlength (by simp)
      | cons member following =>
          refine .inr ⟨rfl, ?_⟩
          simp only [List.isEmpty_cons, Bool.false_eq_true, if_false, hlength, beq_self_eq_true]

/-- What becomes of a scope of the source: it is complete, or it is translated into as many entries. -/
theorem scope_outcome_cases (htranslates : Translates translate locale)
    (hwell : Json.WellFormed (.object source)) (hholds : HoldsScopes target) {scope : Text}
    {entries : Entries Json} (hscope : source.scope? scope = some entries) (state : σ) :
    Matches source target scope ∧
        scopeOutcome translate locale source target state scope = (.skipped, state) ∨
      isComplete? entries (Entries.get? target scope) = some false ∧
        ∃ translation next, Json.WellFormed (.object translation) ∧
          translation.length = entries.length ∧
          scopeOutcome translate locale source target state scope =
            (.translated translation, next) := by
  unfold scopeOutcome
  simp only [hscope]
  cases hcomplete : isComplete? entries (Entries.get? target scope) with
  | none => exact absurd hcomplete (hholds.comparable entries scope)
  | some complete =>
      cases complete with
      | true =>
          refine .inl ⟨?_, rfl⟩
          cases hget : Entries.get? target scope with
          | none => simp [hget, isComplete?] at hcomplete
          | some value =>
              obtain ⟨members, hmembers⟩ := Option.isSome_iff_exists.mp (hholds scope value hget)
              obtain ⟨other, rfl⟩ : ∃ other, value = .object other := by
                cases value with
                | object other => exact ⟨other, rfl⟩
                | _ => exact absurd hmembers (by simp [Json.members?])
              simp only [hget, isComplete?, size?, Option.map_some] at hcomplete
              split at hcomplete
              · exact absurd hcomplete (by simp)
              · exact ⟨entries, other, hscope, hget, by simpa using hcomplete⟩
      | false =>
          obtain ⟨translation, hanswer, htranslation, hkeys⟩ := htranslates state scope entries
          have hnodup : translation.names.Nodup := by
            cases htranslation with
            | object hnames _ => exact hnames
          refine .inr ⟨rfl, translation, (translate state scope entries locale).2, htranslation,
            length_eq_of_names hnodup (names_nodup_of_scope hwell hscope) hkeys, ?_⟩
          simp only [hanswer, check_keys_ok hkeys]

/-- The state of a refresh after some scopes, none of which failed. Without a source the dictionary
is refreshed from itself and does not change. -/
structure Finishing (source : Option Dictionary) (start : Dictionary) (done : List Text)
    (state : RefreshState σ) : Prop where
  holds : HoldsScopes state.target
  well : Json.WellFormed (.object state.target)
  header : Entries.get? state.target headerName = Entries.get? start headerName
  own : source = none → state.target = start
  reached : ∀ scope ∈ done, Matches (source.getD state.target) state.target scope
  failed : state.report.failed = []
  last : state.saved.head? = some state.target ∨ state.saved = [] ∧ state.report.translated = []

/-- The dictionary from which the scopes are taken stays the same. -/
theorem Finishing.current {source : Option Dictionary} {start : Dictionary} {done : List Text}
    {state : RefreshState σ} (h : Finishing source start done state) :
    source.getD state.target = source.getD start := by
  cases source with
  | none => exact h.own rfl
  | some other => rfl

/-- A dictionary that is refreshed from itself does not change: only a scope without entries is
translated, into no entries. -/
theorem put_of_own {scope : Text} {entries translation : Entries Json}
    (hscope : target.scope? scope = some entries)
    (hstale : isComplete? entries (Entries.get? target scope) = some false)
    (hlength : translation.length = entries.length) :
    Entries.put target scope (.object translation) = target := by
  have hget : Entries.get? target scope = some (.object entries) := by
    obtain ⟨value, hvalue, hmembers⟩ := Option.bind_eq_some_iff.mp hscope
    cases value with
    | object members =>
        obtain rfl := Option.some.inj hmembers
        exact hvalue
    | _ => exact absurd hmembers (by simp [Json.members?])
  rw [hget] at hstale
  cases entries with
  | nil =>
      obtain rfl := List.length_eq_zero_iff.mp hlength
      exact Entries.put_same hget
  | cons entry others => simp [isComplete?, size?, Json.isEmptyValue] at hstale

/-- Putting as many entries under a scope as the source has keeps what was reached. -/
theorem Matches.put {scope other : Text} {entries translation : Entries Json}
    (hscope : source.scope? scope = some entries) (hlength : translation.length = entries.length)
    (h : other = scope ∨ Matches source target other) :
    Matches source (Entries.put target scope (.object translation)) other := by
  by_cases heq : other = scope
  · subst heq
    exact ⟨entries, translation, hscope, by rw [Entries.get_put, if_pos rfl], hlength⟩
  · obtain ⟨held, members, hsource, hget, hsame⟩ := h.resolve_left heq
    exact ⟨held, members, hsource, by rw [Entries.get_put, if_neg heq]; exact hget, hsame⟩

/-- One more scope that is complete. -/
theorem Finishing.skipped {source : Option Dictionary} {start : Dictionary} {done : List Text}
    {state : RefreshState σ} (h : Finishing source start done state) {scope : Text}
    (hmatches : Matches (source.getD start) state.target scope) :
    Finishing source start (done ++ [scope]) { state with
      report := { state.report with skipped := state.report.skipped ++ [scope] } } := by
  refine ⟨h.holds, h.well, h.header, h.own, fun other hmem ↦ ?_, h.failed, h.last⟩
  rcases List.mem_append.mp hmem with hmem | hmem
  · exact h.reached other hmem
  · rw [List.mem_singleton.mp hmem]
    show Matches (source.getD state.target) state.target scope
    rw [h.current]
    exact hmatches

/-- One more scope that is translated into as many entries as the source has. -/
theorem Finishing.translated {source : Option Dictionary} {start : Dictionary} {done : List Text}
    {state : RefreshState σ} (h : Finishing source start done state) {scope : Text}
    (hheader : scope ≠ headerName) {entries translation : Entries Json}
    (hscope : (source.getD start).scope? scope = some entries)
    (hstale : isComplete? entries (Entries.get? state.target scope) = some false)
    (htranslation : Json.WellFormed (.object translation))
    (hlength : translation.length = entries.length) (next : σ) :
    Finishing source start (done ++ [scope])
      ⟨Entries.put state.target scope (.object translation),
        Entries.put state.target scope (.object translation) :: state.saved,
        { state.report with translated := state.report.translated ++ [scope] }, next⟩ := by
  have hsame (hnone : source = none) :
      Entries.put state.target scope (.object translation) = state.target := by
    subst hnone
    refine put_of_own ?_ hstale hlength
    rw [h.own rfl]
    exact hscope
  refine ⟨.put (fun name value hget _ ↦ h.holds name value hget) translation,
    put_well_formed h.well scope htranslation, ?_, fun hnone ↦ ?_, fun other hmem ↦ ?_, h.failed,
    .inl rfl⟩
  · show Entries.get? (Entries.put state.target scope (.object translation)) headerName = _
    rw [Entries.get_put, if_neg (Ne.symm hheader)]
    exact h.header
  · exact (hsame hnone).trans (h.own hnone)
  · show Matches (source.getD (Entries.put state.target scope (.object translation)))
      (Entries.put state.target scope (.object translation)) other
    have hafter : source.getD (Entries.put state.target scope (.object translation)) =
        source.getD start := by
      cases source with
      | none => exact (hsame rfl).trans (h.own rfl)
      | some found => rfl
    rw [hafter]
    refine .put hscope hlength ?_
    rcases List.mem_append.mp hmem with hmem | hmem
    · have hreached := h.reached other hmem
      rw [h.current] at hreached
      exact .inr hreached
    · exact .inl (List.mem_singleton.mp hmem)

/-- One more scope of the source. -/
theorem Finishing.step {source : Option Dictionary} {start : Dictionary} {done : List Text}
    {state : RefreshState σ} (h : Finishing source start done state)
    (htranslates : Translates translate locale)
    (hwell : Json.WellFormed (.object (source.getD start))) {scope : Text}
    (hheader : scope ≠ headerName) {entries : Entries Json}
    (hscope : (source.getD start).scope? scope = some entries) :
    ∃ next, refreshScope translate locale source state scope = .ok next ∧
      Finishing source start (done ++ [scope]) next := by
  unfold refreshScope
  rw [h.current]
  rcases scope_outcome_cases htranslates hwell h.holds hscope state.translator with
    ⟨hmatches, houtcome⟩ | ⟨hstale, translation, next, htranslation, hlength, houtcome⟩
  · simp only [houtcome]
    exact ⟨_, rfl, h.skipped hmatches⟩
  · simp only [houtcome]
    exact ⟨_, rfl, h.translated hheader hscope hstale htranslation hlength next⟩

/-- Some more scopes of the source. -/
theorem Finishing.run {source : Option Dictionary} {start : Dictionary} {done : List Text}
    {state : RefreshState σ} (h : Finishing source start done state)
    (htranslates : Translates translate locale)
    (hwell : Json.WellFormed (.object (source.getD start))) {scopes : List Text}
    (hscopes : ∀ scope ∈ scopes, scope ≠ headerName ∧
      ∃ entries, (source.getD start).scope? scope = some entries) :
    ∃ final, refreshScopes translate locale source state scopes = .ok final ∧
      Finishing source start (done ++ scopes) final := by
  induction scopes generalizing done state with
  | nil => exact ⟨state, rfl, by rw [List.append_nil]; exact h⟩
  | cons scope scopes ih =>
      obtain ⟨hheader, entries, hscope⟩ := hscopes scope (List.mem_cons_self ..)
      obtain ⟨next, hnext, hstep⟩ := h.step htranslates hwell hheader hscope
      obtain ⟨final, hfinal, hend⟩ := ih hstep fun other hmem ↦
        hscopes other (List.mem_cons_of_mem _ hmem)
      refine ⟨final, ?_, ?_⟩
      · rw [refreshScopes, hnext]
        exact hfinal
      · rw [List.append_assoc] at hend
        exact hend

/-- A refresh over scopes of the source ends with as many entries under each of them as the source
has, and no scope fails. -/
theorem refresh_finishes {source : Option Dictionary}
    (hholds : HoldsScopes (withHeader locale target))
    (htarget : Json.WellFormed (.object target))
    (htranslates : Translates translate locale)
    (hwell : Json.WellFormed (.object (source.getD (withHeader locale target))))
    {sections : List Text}
    (hscopes : ∀ scope ∈ requestedScopes sections (source.getD (withHeader locale target)),
      scope ≠ headerName ∧
        ∃ entries, (source.getD (withHeader locale target)).scope? scope = some entries)
    (translator : σ) :
    ∃ state, refresh translate translator locale source sections target = .ok state ∧
      Finishing source (withHeader locale target)
        (requestedScopes sections (source.getD (withHeader locale target))) state ∧
      state.saved.head? = some state.target := by
  have hstart : Finishing source (withHeader locale target) []
      (⟨withHeader locale target, [], ⟨[], [], [], []⟩, translator⟩ : RefreshState σ) :=
    ⟨hholds, put_well_formed htarget _ (header_well_formed locale), rfl, fun _ ↦ rfl, by simp, rfl,
      .inr ⟨rfl, rfl⟩⟩
  obtain ⟨final, hfinal, hend⟩ := hstart.run htranslates hwell hscopes
  rw [List.nil_append] at hend
  obtain ⟨saved, hrefresh, hhead, -⟩ := refresh_ends hfinal (hend.last.imp_right fun hunsaved ↦
    ⟨hunsaved.1, hunsaved.2, hend.failed⟩)
  exact ⟨{ final with saved }, hrefresh, ⟨hend.holds, hend.well, hend.header, hend.own, hend.reached,
    hend.failed, .inl hhead⟩, hhead⟩

end LocalizedSite.Dictionary
