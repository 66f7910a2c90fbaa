import LocalizedSite.Proofs.Dictionary.Repeat

/-!
# What a refresh changes

A refresh is described by the calls of the translator: the scopes for which it was asked, what it was
shown, and what it answered (`Call`). `Accounts` says what a refresh has done after some scopes, and
`Accounts.run` carries it through all of them; whatever the translator answers, a scope is replaced
as a whole or keeps its value. `Store.refresh_accounts` is the statement about the dictionary files.
-/

namespace LocalizedSite

namespace Dictionary

variable {σ τ : Type} {translate : Translator σ} {locale : Locale} {source target : Dictionary}

/-- A call of a translator. -/
structure Call where
  /-- The scope for which the translator was asked. -/
  scope : Text
  /-- The entries that it was shown. -/
  entries : Entries Json
  /-- What it answered. -/
  answer : Except TranslationFault (Entries Json)

/-- Whether two mappings have the same keys. -/
def sameKeys (first second : Entries Json) : Bool :=
  first.names.all (second.names.contains ·) && second.names.all (first.names.contains ·)

/-- The translation that a call brings, if it has exactly the keys that the translator was shown. -/
def Call.accepted? (call : Call) : Option (Entries Json) :=
  match call.answer with
  | .error _ => none
  | .ok translation => if sameKeys call.entries translation then some translation else none

/-- A translator that keeps a record of its calls. -/
def Translator.recorded (translate : Translator σ) : Translator (σ × List Call) :=
  fun (state, calls) scope entries locale ↦
    let (answer, next) := translate state scope entries locale
    (answer, next, calls ++ [⟨scope, entries, answer⟩])

/-- How a scope stands: nothing if the source does not have it, and otherwise whether it is complete
in the target, if the two can be compared. -/
def standing? (source target : Dictionary) (scope : Text) : Option (Option Bool) :=
  (source.scope? scope).map fun entries ↦ isComplete? entries (Entries.get? target scope)

/-- A scope that the source does not have. -/
def isAbsent (source target : Dictionary) (scope : Text) : Bool :=
  standing? source target scope == none

/-- A scope of the source that is complete in the target. -/
def isFinished (source target : Dictionary) (scope : Text) : Bool :=
  standing? source target scope == some (some true)

/-- A scope of the source that is not complete in the target. -/
def isStale (source target : Dictionary) (scope : Text) : Bool :=
  standing? source target scope == some (some false)

section Mirrors

/-- A translator answers as another one does, and each of its states stands for one of the other's. -/
def Translator.Mirrors (first : Translator τ) (second : Translator σ) (view : τ → σ) : Prop :=
  ∀ state scope entries locale, second (view state) scope entries locale =
    ((first state scope entries locale).1, view (first state scope entries locale).2)

/-- Keeping a record does not change the answers. -/
theorem recorded_mirrors (translate : Translator σ) :
    translate.recorded.Mirrors translate Prod.fst :=
  fun _ _ _ _ ↦ rfl

/-- The state of a refresh for a translator that is mirrored. -/
def RefreshState.view (view : τ → σ) (state : RefreshState τ) : RefreshState σ :=
  ⟨state.target, state.saved, state.report, view state.translator⟩

/-- What a refresh comes to for a translator that is mirrored. -/
def viewResult (view : τ → σ) :
    Except (RefreshState τ) (RefreshState τ) → Except (RefreshState σ) (RefreshState σ)
  | .ok state => .ok (state.view view)
  | .error state => .error (state.view view)

variable {first : Translator τ} {second : Translator σ} {view : τ → σ}

/-- The same is decided about a scope. -/
theorem Translator.Mirrors.scope_outcome (h : first.Mirrors second view) (locale : Locale)
    (source target : Dictionary) (state : τ) (scope : Text) :
    scopeOutcome second locale source target (view state) scope =
      ((scopeOutcome first locale source target state scope).1,
        view (scopeOutcome first locale source target state scope).2) := by
  unfold scopeOutcome
  cases source.scope? scope with
  | none => rfl
  | some entries =>
      simp only
      cases isComplete? entries (Entries.get? target scope) with
      | none => rfl
      | some complete =>
          cases complete with
          | true => rfl
          | false =>
              simp only [h state scope entries locale]
              split
              · rfl
              · split
                · rfl
                · rfl

/-- The same is done to a scope. -/
theorem Translator.Mirrors.refresh_scope (h : first.Mirrors second view) (locale : Locale)
    (source : Option Dictionary) (state : RefreshState τ) (scope : Text) :
    refreshScope second locale source (state.view view) scope =
      viewResult view (refreshScope first locale source state scope) := by
  have houtcome := h.scope_outcome locale (source.getD state.target) state.target
    state.translator scope
  unfold refreshScope
  simp only [RefreshState.view, houtcome]
  cases (scopeOutcome first locale (source.getD state.target) state.target state.translator
    scope).1 <;> rfl

/-- The same is done to some scopes. -/
theorem Translator.Mirrors.refresh_scopes (h : first.Mirrors second view) (locale : Locale)
    (source : Option Dictionary) (state : RefreshState τ) (scopes : List Text) :
    refreshScopes second locale source (state.view view) scopes =
      viewResult view (refreshScopes first locale source state scopes) := by
  induction scopes generalizing state with
  | nil => rfl
  | cons scope scopes ih =>
      rw [refreshScopes, refreshScopes, h.refresh_scope]
      cases refreshScope first locale source state scope with
      | error next => rfl
      | ok next => exact ih next

/-- A refresh is the same. -/
theorem Translator.Mirrors.refresh (h : first.Mirrors second view) (locale : Locale) (state : τ)
    (source : Option Dictionary) (sections : List Text) (target : Dictionary) :
    Dictionary.refresh second (view state) locale source sections target =
      viewResult view (Dictionary.refresh first state locale source sections target) := by
  have hscopes := h.refresh_scopes locale source
    ⟨withHeader locale target, [], ⟨[], [], [], []⟩, state⟩
    (requestedScopes sections (source.getD (withHeader locale target)))
  simp only [RefreshState.view] at hscopes
  unfold Dictionary.refresh
  simp only
  rw [hscopes]
  cases refreshScopes first locale source ⟨withHeader locale target, [], ⟨[], [], [], []⟩, state⟩
      (requestedScopes sections (source.getD (withHeader locale target))) with
  | error next => rfl
  | ok next =>
      show Except.ok (if _ then _ else _) = viewResult view (.ok (if _ then _ else _))
      rw [show (next.view view).report = next.report from rfl]
      by_cases hnone : (next.report.translated.isEmpty && next.report.failed.isEmpty) = true
      · rw [if_pos hnone, if_pos hnone]
        rfl
      · rw [if_neg hnone, if_neg hnone]
        rfl

end Mirrors

section Keys

/-- Mappings have the same keys if each key of one is a key of the other. -/
theorem same_keys_iff {first second : Entries Json} :
    sameKeys first second = true ↔ ∀ key, key ∈ second.names ↔ key ∈ first.names := by
  simp only [sameKeys, Bool.and_eq_true, List.all_eq_true, List.contains_iff_mem]
  exact ⟨fun h key ↦ ⟨h.2 key, h.1 key⟩, fun h ↦ ⟨fun key ↦ (h key).mpr, fun key ↦ (h key).mp⟩⟩

/-- A text is put into a list somewhere. -/
theorem insert_sorted_ne_nil {α : Type} (key : α → Text) (value : α) (values : List α) :
    Text.insertSorted key value values ≠ [] := by
  cases values with
  | nil => simp [Text.insertSorted]
  | cons other others =>
      rw [Text.insertSorted]
      split <;> simp

/-- Sorting loses nothing. -/
theorem sort_by_eq_nil {α : Type} {key : α → Text} {values : List α}
    (h : Text.sortBy key values = []) : values = [] := by
  rcases List.eq_nil_or_concat' values with hnil | ⟨others, last, rfl⟩
  · exact hnil
  · rw [Text.sortBy, List.foldl_concat] at h
    exact absurd h (insert_sorted_ne_nil key last _)

/-- If no name is missing, all of them are among the others. -/
theorem mem_of_names_without {names others : List Text} (h : namesWithout names others = [])
    {name : Text} (hmem : name ∈ names) : name ∈ others := by
  have hnone := sort_by_eq_nil h
  by_contra hother
  have hfound : name ∈ (names.filter fun name ↦ !others.contains name).eraseDups := by
    simp [hmem, hother]
  rw [hnone] at hfound
  exact List.not_mem_nil hfound

/-- A translation is accepted exactly when it has the keys of the source. -/
theorem check_keys_iff {scope : Text} {entries translation : Entries Json} :
    checkKeys scope entries.names translation.names = .ok () ↔
      sameKeys entries translation = true := by
  rw [same_keys_iff]
  constructor
  · intro h
    unfold checkKeys at h
    simp only at h
    split at h
    · next hempty =>
        simp only [Bool.and_eq_true, List.isEmpty_iff] at hempty
        exact fun key ↦ ⟨mem_of_names_without hempty.2, mem_of_names_without hempty.1⟩
    · exact absurd h (by simp)
  · exact fun h ↦ check_keys_ok h scope

end Keys

/-- What one scope does: the target's value cannot be compared and the refresh stops, or the scope is
absent, or it is complete, or the translator is asked for it and its answer is accepted or not. -/
theorem refresh_scope_cases (source : Option Dictionary) (state : RefreshState σ) (scope : Text) :
    let current := source.getD state.target
    let after := refreshScope translate locale source state scope
    standing? current state.target scope = some none ∧ after = .error state ∨
      standing? current state.target scope = none ∧ after = .ok { state with
        report := { state.report with missing := state.report.missing ++ [scope] } } ∨
      standing? current state.target scope = some (some true) ∧ after = .ok { state with
        report := { state.report with skipped := state.report.skipped ++ [scope] } } ∨
      ∃ entries answer next, standing? current state.target scope = some (some false) ∧
        current.scope? scope = some entries ∧
        translate state.translator scope entries locale = (answer, next) ∧
        (Call.accepted? ⟨scope, entries, answer⟩ = none ∧
            after = .ok ⟨state.target, state.target :: state.saved,
              { state.report with failed := state.report.failed ++ [scope] }, next⟩ ∨
          ∃ translation, Call.accepted? ⟨scope, entries, answer⟩ = some translation ∧
            after = .ok ⟨Entries.put state.target scope (.object translation),
              Entries.put state.target scope (.object translation) :: state.saved,
              { state.report with translated := state.report.translated ++ [scope] }, next⟩) := by
  intro current after
  unfold after refreshScope scopeOutcome
  cases hscope : current.scope? scope with
  | none =>
      simp only
      exact .inr (.inl ⟨by simp [standing?, hscope], trivial⟩)
  | some entries =>
      simp only
      have hstanding : standing? current state.target scope =
          some (isComplete? entries (Entries.get? state.target scope)) := by
        simp [standing?, hscope]
      cases hcomplete : isComplete? entries (Entries.get? state.target scope) with
      | none => exact .inl ⟨hstanding.trans (congrArg some hcomplete), rfl⟩
      | some complete =>
          rw [hcomplete] at hstanding
          cases complete with
          | true => exact .inr (.inr (.inl ⟨hstanding, rfl⟩))
          | false =>
              refine .inr (.inr (.inr ⟨entries, (translate state.translator scope entries locale).1,
                (translate state.translator scope entries locale).2, hstanding, rfl, rfl, ?_⟩))
              simp only
              cases hanswer : (translate state.translator scope entries locale).1 with
              | error fault => exact .inl ⟨rfl, rfl⟩
              | ok translation =>
                  simp only [Call.accepted?]
                  cases hsame : sameKeys entries translation with
                  | true =>
                      refine .inr ⟨translation, rfl, ?_⟩
                      rw [check_keys_iff.mpr hsame]
                  | false =>
                      refine .inl ⟨rfl, ?_⟩
                      cases hcheck : checkKeys scope entries.names translation.names with
                      | error fault => rfl
                      | ok checked =>
                          rw [check_keys_iff.mp hcheck] at hsame
                          exact absurd hsame (by simp)

/-- Scopes are gone through one part after the other. -/
theorem refresh_scopes_append (source : Option Dictionary) (state : RefreshState σ)
    (first others : List Text) : refreshScopes translate locale source state (first ++ others) =
      match refreshScopes translate locale source state first with
      | .error stopped => .error stopped
      | .ok next => refreshScopes translate locale source next others := by
  induction first generalizing state with
  | nil => rfl
  | cons scope first ih =>
      rw [List.cons_append, refreshScopes, refreshScopes]
      split
      · rfl
      · exact ih _

/-- What a refresh has done after some scopes. The scopes that are not complete were asked for in
order, a scope whose translation was accepted is that translation, and everything else is as it was,
apart from the header. -/
structure Accounts (locale : Locale) (source target : Dictionary) (done : List Text)
    (final : Dictionary) (report : RefreshReport) (calls : List Call) : Prop where
  asked : calls.map Call.scope = done.filter (isStale source target)
  shown : ∀ call ∈ calls, source.scope? call.scope = some call.entries
  translated : report.translated = (calls.filter (·.accepted?.isSome)).map Call.scope
  failed : report.failed = (calls.filter (·.accepted?.isNone)).map Call.scope
  skipped : report.skipped = done.filter (isFinished source target)
  missing : report.missing = done.filter (isAbsent source target)
  replaced : ∀ call ∈ calls, ∀ translation, call.accepted? = some translation →
    Entries.get? final call.scope = some (.object translation)
  kept : ∀ name, name ≠ headerName → name ∉ report.translated →
    Entries.get? final name = Entries.get? target name
  header : Entries.get? final headerName = some (ofTexts locale.header)

/-- At the beginning of a refresh nothing but the header is changed. -/
theorem accounts_start (locale : Locale) (source target : Dictionary) :
    Accounts locale source target [] (withHeader locale target) ⟨[], [], [], []⟩ [] :=
  ⟨rfl, by simp, rfl, rfl, rfl, rfl, by simp,
    fun name hname _ ↦ by rw [withHeader, Entries.get_put, if_neg hname],
    get_with_header locale target⟩

namespace Accounts

variable {done : List Text} {final : Dictionary} {report : RefreshReport} {calls : List Call}
  {scope : Text}

/-- The translator was asked only for scopes that were gone through. -/
theorem scope_mem (h : Accounts locale source target done final report calls) {call : Call}
    (hmem : call ∈ calls) : call.scope ∈ done := by
  have hscope : call.scope ∈ calls.map Call.scope := List.mem_map_of_mem hmem
  rw [h.asked] at hscope
  exact (List.mem_filter.mp hscope).1

/-- A scope that was not gone through is as it was. -/
theorem get_eq (h : Accounts locale source target done final report calls)
    (hheader : scope ≠ headerName) (hnew : scope ∉ done) :
    Entries.get? final scope = Entries.get? target scope := by
  refine h.kept scope hheader fun hmem ↦ hnew ?_
  rw [h.translated] at hmem
  obtain ⟨call, hcall, rfl⟩ := List.mem_map.mp hmem
  exact h.scope_mem (List.mem_filter.mp hcall).1

/-- One more scope, which the source does not have. -/
theorem absent (h : Accounts locale source target done final report calls)
    (hstanding : standing? source target scope = none) :
    Accounts locale source target (done ++ [scope]) final
      { report with missing := report.missing ++ [scope] } calls where
  asked := by simp [h.asked, isStale, hstanding]
  shown := h.shown
  translated := h.translated
  failed := h.failed
  skipped := by simp [h.skipped, isFinished, hstanding]
  missing := by simp [h.missing, isAbsent, hstanding]
  replaced := h.replaced
  kept := h.kept
  header := h.header

/-- One more scope, which is complete. -/
theorem finished (h : Accounts locale source target done final report calls)
    (hstanding : standing? source target scope = some (some true)) :
    Accounts locale source target (done ++ [scope]) final
      { report with skipped := report.skipped ++ [scope] } calls where
  asked := by simp [h.asked, isStale, hstanding]
  shown := h.shown
  translated := h.translated
  failed := h.failed
  skipped := by simp [h.skipped, isFinished, hstanding]
  missing := by simp [h.missing, isAbsent, hstanding]
  replaced := h.replaced
  kept := h.kept
  header := h.header

/-- One more scope, for which the translation was not accepted. -/
theorem refused (h : Accounts locale source target done final report calls)
    (hstanding : standing? source target scope = some (some false)) {entries : Entries Json}
    (hscope : source.scope? scope = some entries)
    {answer : Except TranslationFault (Entries Json)}
    (hrefused : Call.accepted? ⟨scope, entries, answer⟩ = none) :
    Accounts locale source target (done ++ [scope]) final
      { report with failed := report.failed ++ [scope] } (calls ++ [⟨scope, entries, answer⟩]) where
  asked := by simp [h.asked, isStale, hstanding]
  shown := by simpa [or_imp, forall_and, hscope] using h.shown
  translated := by simp [h.translated, hrefused]
  failed := by simp [h.failed, hrefused]
  skipped := by simp [h.skipped, isFinished, hstanding]
  missing := by simp [h.missing, isAbsent, hstanding]
  replaced := by simpa [or_imp, forall_and, hrefused] using h.replaced
  kept := h.kept
  header := h.header

/-- One more scope, for which the translation was accepted. -/
theorem accepted (h : Accounts locale source target done final report calls)
    (hheader : scope ≠ headerName) (hnew : scope ∉ done)
    (hstanding : standing? source target scope = some (some false)) {entries : Entries Json}
    (hscope : source.scope? scope = some entries)
    {answer : Except TranslationFault (Entries Json)} {translation : Entries Json}
    (haccepted : Call.accepted? ⟨scope, entries, answer⟩ = some translation) :
    Accounts locale source target (done ++ [scope])
      (Entries.put final scope (.object translation))
      { report with translated := report.translated ++ [scope] }
      (calls ++ [⟨scope, entries, answer⟩]) where
  asked := by simp [h.asked, isStale, hstanding]
  shown := by simpa [or_imp, forall_and, hscope] using h.shown
  translated := by simp [h.translated, haccepted]
  failed := by simp [h.failed, haccepted]
  skipped := by simp [h.skipped, isFinished, hstanding]
  missing := by simp [h.missing, isAbsent, hstanding]
  replaced := by
    intro call hmem other hother
    rw [Entries.get_put]
    rcases List.mem_append.mp hmem with hmem | hmem
    · have hne : call.scope ≠ scope := fun heq ↦ hnew (heq ▸ h.scope_mem hmem)
      rw [if_neg hne]
      exact h.replaced call hmem other hother
    · obtain rfl := List.mem_singleton.mp hmem
      obtain rfl := Option.some.inj (haccepted.symm.trans hother)
      exact if_pos rfl
  kept := by
    intro name hname hkept
    simp only [List.mem_append, List.mem_singleton, not_or] at hkept
    rw [Entries.get_put, if_neg hkept.2]
    exact h.kept name hname hkept.1
  header := by
    rw [Entries.get_put, if_neg (Ne.symm hheader)]
    exact h.header

/-- The source holds under a scope that was not gone through what it held at the beginning, also if
the locale is refreshed from itself. -/
theorem scope_current (h : Accounts locale source target done final report calls) {code : Text}
    (hsame : locale.code = code → target = source) (hheader : scope ≠ headerName)
    (hnew : scope ∉ done) :
    ((Store.sourceFor code locale source).getD final).scope? scope = source.scope? scope := by
  unfold Store.sourceFor
  split
  · next hcode =>
      rw [Option.getD_none, scope?, h.get_eq hheader hnew, hsame hcode]
      rfl
  · rfl

/-- A scope that was not gone through stands as it stood at the beginning. -/
theorem standing_current (h : Accounts locale source target done final report calls) {code : Text}
    (hsame : locale.code = code → target = source) (hheader : scope ≠ headerName)
    (hnew : scope ∉ done) :
    standing? ((Store.sourceFor code locale source).getD final) final scope =
      standing? source target scope := by
  rw [standing?, standing?, h.scope_current hsame hheader hnew, h.get_eq hheader hnew]

end Accounts

/-- The translator answers with mappings only. -/
def AnswersMappings (translate : Translator σ) (locale : Locale) : Prop :=
  ∀ state scope entries translation, (translate state scope entries locale).1 = .ok translation →
    Json.WellFormed (.object translation)

/-- An accepted translation is the answer. -/
theorem Call.answer_of_accepted {call : Call} {translation : Entries Json}
    (h : call.accepted? = some translation) :
    call.answer = .ok translation ∧ ∀ key, key ∈ translation.names ↔ key ∈ call.entries.names := by
  unfold accepted? at h
  split at h
  · exact absurd h (by simp)
  · next other hanswer =>
      split at h
      · next hsame =>
          obtain rfl := Option.some.inj h
          exact ⟨hanswer, same_keys_iff.mp hsame⟩
      · exact absurd h (by simp)

/-- The state of a refresh after some scopes, with the record of the calls. -/
structure Recording (locale : Locale) (source target : Dictionary) (done : List Text)
    (state : RefreshState (σ × List Call)) : Prop where
  account : Accounts locale source target done state.target state.report state.translator.2
  well : Json.WellFormed (.object state.target)
  last : state.saved.head? = some state.target ∨
    state.saved = [] ∧ state.report.translated = [] ∧ state.report.failed = []

namespace Recording

variable {code : Text} {done : List Text} {state : RefreshState (σ × List Call)} {scope : Text}

/-- At the beginning nothing is saved. -/
theorem start (locale : Locale) (source : Dictionary) (hwell : Json.WellFormed (.object target))
    (translator : σ) : Recording locale source target []
      ⟨withHeader locale target, [], ⟨[], [], [], []⟩, (translator, [])⟩ :=
  ⟨accounts_start locale source target, put_well_formed hwell _ (header_well_formed locale),
    .inr ⟨rfl, rfl, rfl⟩⟩

/-- One more scope, which can be compared. -/
theorem step (h : Recording locale source target done state)
    (hmappings : AnswersMappings translate locale) (hsame : locale.code = code → target = source)
    (hheader : scope ≠ headerName) (hnew : scope ∉ done)
    (hcomparable : standing? source target scope ≠ some none) :
    ∃ next, refreshScope translate.recorded locale (Store.sourceFor code locale source) state scope =
        .ok next ∧ Recording locale source target (done ++ [scope]) next := by
  have hstanding := h.account.standing_current hsame hheader hnew
  rcases refresh_scope_cases (Store.sourceFor code locale source) state scope with
    ⟨hstops, -⟩ | ⟨habsent, hafter⟩ | ⟨hfinished, hafter⟩ |
    ⟨entries, answer, next, hstale, hentries, hcall, hcases⟩
  · exact absurd (hstanding.symm.trans hstops) hcomparable
  · exact ⟨_, hafter, h.account.absent (hstanding.symm.trans habsent), h.well, h.last⟩
  · exact ⟨_, hafter, h.account.finished (hstanding.symm.trans hfinished), h.well, h.last⟩
  · rw [hstanding] at hstale
    rw [h.account.scope_current hsame hheader hnew] at hentries
    obtain ⟨rfl, rfl⟩ := Prod.mk.inj hcall
    rcases hcases with ⟨hrefused, hafter⟩ | ⟨translation, haccepted, hafter⟩
    · exact ⟨_, hafter, h.account.refused hstale hentries hrefused, h.well, .inl rfl⟩
    · have htranslation : Json.WellFormed (.object translation) :=
        hmappings _ _ _ _ (Call.answer_of_accepted haccepted).1
      exact ⟨_, hafter, h.account.accepted hheader hnew hstale hentries haccepted,
        put_well_formed h.well scope htranslation, .inl rfl⟩

/-- A scope that cannot be compared stops the refresh. -/
theorem stop (h : Recording locale source target done state) (translate : Translator σ)
    (hsame : locale.code = code → target = source) (hheader : scope ≠ headerName)
    (hnew : scope ∉ done) (hincomparable : standing? source target scope = some none) :
    refreshScope translate.recorded locale (Store.sourceFor code locale source) state scope =
      .error state := by
  have hstanding := (h.account.standing_current hsame hheader hnew).trans hincomparable
  rcases refresh_scope_cases (Store.sourceFor code locale source) state scope with
    ⟨-, hafter⟩ | ⟨habsent, -⟩ | ⟨hfinished, -⟩ | ⟨_, _, _, hstale, -⟩
  · exact hafter
  · exact absurd (hstanding.symm.trans habsent) (by simp)
  · exact absurd (hstanding.symm.trans hfinished) (by simp)
  · exact absurd (hstanding.symm.trans hstale) (by simp)

/-- Some more scopes, which can be compared. -/
theorem run (h : Recording locale source target done state)
    (hmappings : AnswersMappings translate locale) (hsame : locale.code = code → target = source)
    {scopes : List Text} (hheader : headerName ∉ scopes) (hnodup : (done ++ scopes).Nodup)
    (hcomparable : ∀ scope ∈ scopes, standing? source target scope ≠ some none) :
    ∃ final, refreshScopes translate.recorded locale (Store.sourceFor code locale source) state
        scopes = .ok final ∧ Recording locale source target (done ++ scopes) final := by
  induction scopes generalizing done state with
  | nil => exact ⟨state, rfl, by rwa [List.append_nil]⟩
  | cons scope scopes ih =>
      rw [List.mem_cons, not_or] at hheader
      have hnew : scope ∉ done := fun hmem ↦
        (List.nodup_append.mp hnodup).2.2 scope hmem scope (List.mem_cons_self ..) rfl
      obtain ⟨hfirst, hothers⟩ := List.forall_mem_cons.mp hcomparable
      obtain ⟨next, hnext, hrecording⟩ := h.step hmappings hsame (Ne.symm hheader.1) hnew hfirst
      rw [← List.singleton_append, ← List.append_assoc] at hnodup ⊢
      obtain ⟨final, hfinal, hend⟩ := ih hrecording hheader.2 hnodup hothers
      refine ⟨final, ?_, hend⟩
      rw [List.singleton_append, refreshScopes, hnext]
      exact hfinal

/-- Some scopes that can be compared and then one that cannot. -/
theorem run_stop (h : Recording locale source target done state)
    (hmappings : AnswersMappings translate locale) (hsame : locale.code = code → target = source)
    {first others : List Text} (hheader : headerName ∉ first ++ scope :: others)
    (hnodup : (done ++ (first ++ scope :: others)).Nodup)
    (hcomparable : ∀ other ∈ first, standing? source target other ≠ some none)
    (hincomparable : standing? source target scope = some none) :
    ∃ final, refreshScopes translate.recorded locale (Store.sourceFor code locale source) state
        (first ++ scope :: others) = .error final ∧
      Recording locale source target (done ++ first) final := by
  rw [List.mem_append, List.mem_cons, not_or, not_or] at hheader
  rw [← List.append_assoc] at hnodup
  obtain ⟨final, hfinal, hend⟩ :=
    h.run hmappings hsame hheader.1 (List.nodup_append.mp hnodup).1 hcomparable
  have hnew : scope ∉ done ++ first := fun hmem ↦
    (List.nodup_append.mp hnodup).2.2 scope hmem scope (List.mem_cons_self ..) rfl
  refine ⟨final, ?_, hend⟩
  rw [refresh_scopes_append, hfinal]
  simp only [refreshScopes, hend.stop translate hsame (Ne.symm hheader.2.1) hnew hincomparable]

end Recording

/-- A refresh whose scopes can all be compared runs to its end, accounts for every requested scope, and
saves the target last. -/
theorem refresh_recording {code : Text} (hmappings : AnswersMappings translate locale)
    (hsame : locale.code = code → target = source) (hwell : Json.WellFormed (.object target))
    {sections : List Text} (hheader : headerName ∉ requestedScopes sections source)
    (hnodup : (requestedScopes sections source).Nodup)
    (hcomparable : ∀ scope ∈ requestedScopes sections source,
      standing? source target scope ≠ some none) (translator : σ) :
    ∃ state, refresh translate.recorded (translator, []) locale (Store.sourceFor code locale source)
        sections target = .ok state ∧
      Recording locale source target (requestedScopes sections source) state ∧
      state.saved.head? = some state.target := by
  obtain ⟨final, hfinal, hend⟩ :=
    (Recording.start locale source hwell translator).run hmappings hsame hheader hnodup hcomparable
  rw [List.nil_append] at hend
  rw [← Store.requested_of_source_for hsame sections] at hfinal
  obtain ⟨saved, hrefresh, hhead, -⟩ := refresh_ends hfinal hend.last
  exact ⟨{ final with saved }, hrefresh, ⟨hend.account, hend.well, .inl hhead⟩, hhead⟩

namespace Accounts

variable {requested : List Text} {final : Dictionary} {report : RefreshReport} {calls : List Call}

/-- Each list of the report has its scopes in the order in which they were requested. -/
theorem sublists (h : Accounts locale source target requested final report calls) :
    report.translated.Sublist requested ∧ report.skipped.Sublist requested ∧
      report.failed.Sublist requested ∧ report.missing.Sublist requested := by
  have hcalls (choose : Call → Bool) :
      ((calls.filter choose).map Call.scope).Sublist requested := by
    have hasked : ((calls.filter choose).map Call.scope).Sublist (calls.map Call.scope) :=
      List.filter_sublist.map Call.scope
    rw [h.asked] at hasked
    exact hasked.trans List.filter_sublist
  rw [h.translated, h.skipped, h.failed, h.missing]
  exact ⟨hcalls _, List.filter_sublist, hcalls _, List.filter_sublist⟩

/-- Every call is reported, so there was none if no scope is reported as translated or failed. -/
theorem calls_eq_nil (h : Accounts locale source target requested final report calls)
    (htranslated : report.translated = []) (hfailed : report.failed = []) : calls = [] := by
  rw [h.translated, List.map_eq_nil_iff] at htranslated
  rw [h.failed, List.map_eq_nil_iff] at hfailed
  have hcalls := List.filter_append_perm (fun call ↦ (Call.accepted? call).isSome) calls
  simpa [htranslated, hfailed] using hcalls

/-- The scopes for which the translator was asked are reported as translated or failed. -/
theorem reports_asked (h : Accounts locale source target requested final report calls) :
    (report.translated ++ report.failed).Perm (requested.filter (isStale source target)) := by
  have hcalls := (List.filter_append_perm (fun call ↦ (Call.accepted? call).isSome) calls).map
    Call.scope
  rw [List.map_append, h.asked] at hcalls
  simpa [h.translated, h.failed] using hcalls

/-- The lists of the report share out the requested scopes, if each of them can be compared. -/
theorem shares_out (h : Accounts locale source target requested final report calls)
    (hcomparable : ∀ scope ∈ requested, standing? source target scope ≠ some none) :
    (report.translated ++ report.failed ++ (report.skipped ++ report.missing)).Perm requested := by
  have hothers : (report.skipped ++ report.missing).Perm
      (requested.filter (!isStale source target ·)) := by
    have hsettled := List.filter_append_perm (isFinished source target)
      (requested.filter (!isStale source target ·))
    rw [List.filter_filter, List.filter_filter] at hsettled
    have hfinished : ∀ scope ∈ requested, isFinished source target scope =
        (isFinished source target scope && !isStale source target scope) := by
      intro scope _
      unfold isFinished isStale
      rcases standing? source target scope with - | - | complete <;> simp
    have habsent : ∀ scope ∈ requested, isAbsent source target scope =
        (!isFinished source target scope && !isStale source target scope) := by
      intro scope hmem
      have hsome := hcomparable scope hmem
      unfold isAbsent isFinished isStale
      generalize standing? source target scope = standing at hsome ⊢
      rcases standing with - | - | complete
      · rfl
      · exact absurd rfl hsome
      · cases complete <;> rfl
    rw [h.skipped, h.missing, List.filter_congr hfinished, List.filter_congr habsent]
    exact hsettled
  exact (h.reports_asked.append hothers).trans (List.filter_append_perm _ requested)

/-- A scope that was replaced is the answer to the call for it, and has exactly the keys that the
translator was shown. -/
theorem answer_of_translated (h : Accounts locale source target requested final report calls)
    {scope : Text} (hmem : scope ∈ report.translated) :
    ∃ entries translation : Entries Json, ⟨scope, entries, .ok translation⟩ ∈ calls ∧
      source.scope? scope = some entries ∧
      (∀ key, key ∈ translation.names ↔ key ∈ entries.names) ∧
      Entries.get? final scope = some (.object translation) := by
  rw [h.translated] at hmem
  obtain ⟨⟨scope, entries, answer⟩, hcall, rfl⟩ := List.mem_map.mp hmem
  obtain ⟨hcall, haccepted⟩ := List.mem_filter.mp hcall
  obtain ⟨translation, haccepted⟩ := Option.isSome_iff_exists.mp haccepted
  obtain ⟨rfl, hkeys⟩ : answer = .ok translation ∧ _ := Call.answer_of_accepted haccepted
  exact ⟨entries, translation, hcall, h.shown _ hcall, hkeys, h.replaced _ hcall _ haccepted⟩

end Accounts

end Dictionary

namespace Store

open Dictionary

variable {σ τ : Type} {translate : Translator σ} {locale : Locale}

/-- Keeping a record does not change a refresh. -/
theorem refresh_recorded (store : Store) (tree : FileTree) (translator : σ) (calls : List Call)
    (sections : List Text) :
    let recorded := store.refresh tree translate.recorded (translator, calls) locale sections
    store.refresh tree translate translator locale sections =
      ⟨recorded.result, recorded.translator.1, recorded.tree, recorded.store⟩ := by
  intro recorded
  unfold recorded refresh
  cases store.source tree with
  | error fault => rfl
  | ok found =>
      obtain ⟨source, kept⟩ := found
      simp only
      cases kept.load tree locale.code with
      | error fault => rfl
      | ok found =>
          obtain ⟨target, loaded⟩ := found
          simp only
          have hmirrors := (recorded_mirrors translate).refresh locale (translator, calls)
            (if locale.code = loaded.sourceCode then none else some source) sections target
          rw [hmirrors]
          cases Dictionary.refresh translate.recorded (translator, calls) locale
              (if locale.code = loaded.sourceCode then none else some source) sections target with
          | error state =>
              simp only [viewResult, RefreshState.view]
              cases loaded.writeAll locale.code tree state.saved.reverse with
              | error stopped => rfl
              | ok after => rfl
          | ok state =>
              simp only [viewResult, RefreshState.view]
              cases loaded.writeAll locale.code tree state.saved.reverse with
              | error stopped => rfl
              | ok after => rfl

/-- The requested scopes come each once and are not the header, if this is so for those asked for. -/
theorem requested_scopes_spec {sections : List Text} {source : Dictionary}
    (hwell : Json.WellFormed (.object source)) (hnodup : sections.Nodup)
    (hheader : headerName ∉ sections) :
    (requestedScopes sections source).Nodup ∧ headerName ∉ requestedScopes sections source := by
  unfold requestedScopes
  split
  · refine ⟨?_, fun hmem ↦ (scope_of_mem_translatable hwell hmem).1 rfl⟩
    cases hwell with
    | object hnames _ => exact hnames.sublist (List.filter_sublist.map Prod.fst)
  · exact ⟨hnodup, hheader⟩

/-- A scope other than the header can be compared if the target's scopes are objects. -/
theorem standing_ne_incomparable {source target : Dictionary}
    (hholds : HoldsScopes (withHeader locale target)) {scope : Text} (hheader : scope ≠ headerName) :
    standing? source target scope ≠ some none := by
  intro hstanding
  obtain ⟨entries, -, hcomplete⟩ := Option.map_eq_some_iff.mp hstanding
  refine hholds.comparable entries scope ?_
  rwa [withHeader, Entries.get_put, if_neg hheader]

/-- A refresh whose file can be written comes to its end, whatever the translator answers. Each
requested scope is in exactly one list of the report, and the lists keep the order of the request. The
translator was asked once and in order for the scopes of the source that are not complete, and for
nothing else. A translated scope is the whole answer, with exactly the keys of the source; every other
scope is as it was, and the header is that of the locale. The file holds the dictionary that the store
has. -/
theorem refresh_accounts {store : Store} {tree written : FileTree} {source target : Dictionary}
    {sections : List Text} (hsource : store.Gives tree store.sourceCode source)
    (htarget : store.Gives tree locale.code target)
    (hwellSource : Json.WellFormed (.object source)) (hwellTarget : Json.WellFormed (.object target))
    (hscopes : ∀ name value, Entries.get? target name = some value → name ≠ headerName →
      value.members?.isSome = true)
    (hnodup : sections.Nodup) (hheader : headerName ∉ sections)
    (hmappings : AnswersMappings translate locale)
    (hwritten : store.writeFile tree locale.code target = .ok written) (translator : σ) :
    let first := store.refresh tree translate translator locale sections
    let recorded := store.refresh tree translate.recorded (translator, []) locale sections
    let requested := requestedScopes sections source
    ∃ report final, first.result = .ok report ∧
      (report.translated ++ report.failed ++ (report.skipped ++ report.missing)).Perm requested ∧
      (report.translated.Sublist requested ∧ report.skipped.Sublist requested ∧
        report.failed.Sublist requested ∧ report.missing.Sublist requested) ∧
      Accounts locale source target requested final report recorded.translator.2 ∧
      (∀ scope ∈ report.translated, ∃ entries translation : Entries Json,
        ⟨scope, entries, .ok translation⟩ ∈ recorded.translator.2 ∧
          source.scope? scope = some entries ∧
          (∀ key, key ∈ Entries.names translation ↔ key ∈ Entries.names entries) ∧
          Entries.get? final scope = some (.object translation)) ∧
      first.store.load first.tree locale.code = .ok (final, first.store) ∧
      first.tree.readText (store.path locale.code) = .ok (fileText (.object final)) ∧
      store.read first.tree locale.code = .ok final := by
  intro first recorded requested
  obtain ⟨hsame, kept, loaded, hkept, hloaded, -⟩ := load_both hsource htarget
  have hholds : HoldsScopes (withHeader locale target) := .with_header hscopes locale
  obtain ⟨hrequested, hrequestedHeader⟩ := requested_scopes_spec hwellSource hnodup hheader
  have hcomparable : ∀ scope ∈ requested, standing? source target scope ≠ some none :=
    fun scope hmem ↦ standing_ne_incomparable hholds fun heq ↦ hrequestedHeader (heq ▸ hmem)
  obtain ⟨state, hstate, hrecording, hlast⟩ :=
    refresh_recording hmappings hsame hwellTarget hrequestedHeader hrequested hcomparable translator
  obtain ⟨earlier, hsaved⟩ := List.head?_eq_some_iff.mp hlast
  obtain ⟨after, hafter⟩ := write_file_ok hwritten state.target
  have hrecorded : recorded =
      ⟨.ok state.report, state.translator, after, loaded.keep locale.code state.target⟩ := by
    unfold recorded
    rw [refresh_eq hkept hloaded hstate, hsaved, List.reverse_cons, write_all_append, hafter]
  have hfirst : first = ⟨recorded.result, recorded.translator.1, recorded.tree, recorded.store⟩ :=
    refresh_recorded store tree translator [] sections
  rw [hfirst, hrecorded]
  have haccount := hrecording.account
  refine ⟨state.report, state.target, rfl, haccount.shares_out hcomparable, haccount.sublists, haccount,
    fun scope ↦ haccount.answer_of_translated, ?_, read_text_of_write_file hrecording.well hafter,
    read_of_write_file hrecording.well hafter⟩
  unfold load keep
  rw [Entries.get_put, if_pos rfl]

/-- A refresh that translates one scope, finds one complete, is refused for one and misses one. -/
theorem refresh_accounts_teas :
    let german : Locale := ⟨"de".toList, "de/".toList, "de_DE".toList, "de".toList, "de".toList,
      "Deutsch".toList, [], none, []⟩
    let heading (text : String) : Entries Json := [("h1".toList, .string text.toList)]
    let home := heading "Teas"
    let shop := heading "Shop"
    let tees := heading "Tees"
    let source : Dictionary := [("home".toList, .object home),
      ("about".toList, .object (heading "About us")), ("shop".toList, .object shop)]
    let target : Dictionary := [("about".toList, .object (heading "Wir")),
      ("blog".toList, .object (heading "Blog"))]
    let translate : Translator Nat := fun asked scope _ _ ↦
      (.ok (if scope = "home".toList then tees else []), asked + 1)
    let place : Location := ["work".toList, "locales".toList]
    let tree : FileTree := ⟨["work".toList], [(["work".toList], .directory), (place, .directory)]⟩
    let store : Store := ⟨FilePath.ofText "locales".toList, "en".toList,
      [("en".toList, source), ("de".toList, target)]⟩
    let sections := ["shop", "home", "about", "gone"].map String.toList
    let first := store.refresh tree translate 0 german sections
    let recorded := store.refresh tree translate.recorded (0, []) german sections
    first.result = .ok ⟨["home".toList], ["about".toList], ["shop".toList], ["gone".toList]⟩ ∧
      recorded.translator.2 = [⟨"shop".toList, shop, .ok []⟩, ⟨"home".toList, home, .ok tees⟩] ∧
      ∃ final, store.read first.tree german.code = .ok final ∧
        Entries.get? final "home".toList = some (.object tees) ∧
        Entries.get? final "shop".toList = none ∧
        Entries.get? final "about".toList = some (.object (heading "Wir")) ∧
        Entries.get? final "blog".toList = some (.object (heading "Blog")) ∧
        Entries.get? final headerName = some (ofTexts german.header) := by
  intro german heading home shop tees source target translate place tree store sections first recorded
  have hheading (text : String) : Json.WellFormed (.object (heading text)) :=
    .object (List.nodup_singleton _) fun member hmem ↦ by
      rw [List.mem_singleton.mp hmem]
      exact .string _
  have hwellSource : Json.WellFormed (.object source) := by
    refine .object (by decide) fun member hmem ↦ ?_
    simp only [source, List.mem_cons, List.not_mem_nil, or_false] at hmem
    rcases hmem with rfl | rfl | rfl <;> exact hheading _
  have hwellTarget : Json.WellFormed (.object target) := by
    refine .object (by decide) fun member hmem ↦ ?_
    simp only [target, List.mem_cons, List.not_mem_nil, or_false] at hmem
    rcases hmem with rfl | rfl <;> exact hheading _
  have hscopes : ∀ name value, Entries.get? target name = some value → name ≠ headerName →
      value.members?.isSome = true := by
    intro name value hget _
    have hmem := Entries.mem_of_get hget
    simp only [target, List.mem_cons, List.not_mem_nil, or_false, Prod.mk.injEq] at hmem
    rcases hmem with ⟨-, rfl⟩ | ⟨-, rfl⟩ <;> rfl
  have hmappings : AnswersMappings translate german := by
    intro asked scope entries translation hanswer
    obtain rfl := Except.ok.inj hanswer
    split
    · exact hheading "Tees"
    · exact .object List.nodup_nil (by simp)
  have hran : first.result =
      .ok ⟨["home".toList], ["about".toList], ["shop".toList], ["gone".toList]⟩ := by decide +kernel
  have hsource : store.Gives tree store.sourceCode source := .inl rfl
  have htarget : store.Gives tree german.code target := .inl rfl
  have hnodup : sections.Nodup := by decide
  have hheader : headerName ∉ sections := by decide
  obtain ⟨report, final, hresult, -, -, haccount, -, -, -, hread⟩ :=
    refresh_accounts hsource htarget hwellSource hwellTarget hscopes hnodup hheader hmappings rfl 0
  obtain rfl : report = ⟨["home".toList], ["about".toList], ["shop".toList], ["gone".toList]⟩ :=
    Except.ok.inj (hresult.symm.trans hran)
  have hcalls : recorded.translator.2 =
      [⟨"shop".toList, shop, .ok []⟩, ⟨"home".toList, home, .ok tees⟩] := rfl
  have hhome : Entries.get? final "home".toList = some (.object tees) :=
    haccount.replaced ⟨"home".toList, home, .ok tees⟩
      (hcalls ▸ List.mem_cons_of_mem _ (List.mem_singleton_self _)) tees rfl
  exact ⟨hran, hcalls, final, hread, hhome, haccount.kept "shop".toList (by decide) (by decide),
    haccount.kept "about".toList (by decide) (by decide),
    haccount.kept "blog".toList (by decide) (by decide), haccount.header⟩

end Store

end LocalizedSite
