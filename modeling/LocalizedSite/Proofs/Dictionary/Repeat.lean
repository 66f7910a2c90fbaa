import LocalizedSite.Dictionary.Merge
import LocalizedSite.Proofs.Dictionary.Finishing
import LocalizedSite.Proofs.Dictionary.Resume

/-!
# Refreshing again

A refresh of a dictionary that has as many entries under each scope as the source asks the translator
for nothing but the scopes without entries, which are never complete (`refresh_matching`). After a
refresh that came to its end the same refresh therefore leaves the files as they are, but asks for
those scopes again every time (`Store.refresh_again`).
-/

namespace LocalizedSite

namespace Dictionary

variable {σ : Type}

/-- A translator that notes the scopes for which it is asked. -/
def Translator.logged (translate : Translator σ) : Translator (σ × List Text) :=
  fun (state, asked) scope entries locale ↦
    let (result, next) := translate state scope entries locale
    (result, next, asked ++ [scope])

variable {translate : Translator σ} {locale : Locale} {source target : Dictionary}

/-- Noting the scopes does not change the answers. -/
theorem Translates.logged (h : Translates translate locale) :
    Translates translate.logged locale :=
  fun state scope entries ↦ h state.1 scope entries

/-- Some of the scopes of a dictionary that has as many entries under each of them as the source: the
ones without entries are translated and the dictionary is saved as it was, the others are skipped. -/
theorem refresh_scopes_matching {source : Option Dictionary} (htranslates : Translates translate locale)
    (state : RefreshState (σ × List Text)) {scopes : List Text}
    (hscopes : ∀ scope ∈ scopes, Matches (source.getD state.target) state.target scope) :
    let bare := scopes.filter (isBare (source.getD state.target))
    ∃ translator, refreshScopes translate.logged locale source state scopes =
      .ok ⟨state.target, List.replicate bare.length state.target ++ state.saved,
        ⟨state.report.translated ++ bare,
          state.report.skipped ++ scopes.filter (!isBare (source.getD state.target) ·),
          state.report.failed, state.report.missing⟩,
        (translator, state.translator.2 ++ bare)⟩ := by
  induction scopes generalizing state with
  | nil => exact ⟨state.translator.1, by simp [refreshScopes]⟩
  | cons scope scopes ih =>
      have hothers : ∀ other ∈ scopes, Matches (source.getD state.target) state.target other :=
        fun other hmem ↦ hscopes other (List.mem_cons_of_mem _ hmem)
      rcases scope_outcome_of_matches htranslates.logged (hscopes scope (List.mem_cons_self ..))
          state.translator with ⟨hheld, hbare, houtcome⟩ | ⟨hbare, houtcome⟩
      · -- the empty translation is put where an empty scope is already
        have hstep : refreshScope translate.logged locale source state scope =
            .ok ⟨state.target, state.target :: state.saved,
              { state.report with translated := state.report.translated ++ [scope] },
              ((translate state.translator.1 scope [] locale).2,
                state.translator.2 ++ [scope])⟩ := by
          unfold refreshScope
          simp only [houtcome, Entries.put_same hheld]
          rfl
        obtain ⟨translator, hrest⟩ := ih ⟨state.target, state.target :: state.saved,
          { state.report with translated := state.report.translated ++ [scope] },
          ((translate state.translator.1 scope [] locale).2, state.translator.2 ++ [scope])⟩
          hothers
        refine ⟨translator, ?_⟩
        rw [refreshScopes, hstep]
        simp only
        rw [hrest]
        simp [hbare, List.replicate_succ', List.append_assoc]
      · have hstep : refreshScope translate.logged locale source state scope =
            .ok { state with
              report := { state.report with skipped := state.report.skipped ++ [scope] } } := by
          unfold refreshScope
          simp only [houtcome]
        obtain ⟨translator, hrest⟩ := ih { state with
          report := { state.report with skipped := state.report.skipped ++ [scope] } } hothers
        refine ⟨translator, ?_⟩
        rw [refreshScopes, hstep]
        simp only
        rw [hrest]
        simp [hbare, List.append_assoc]

/-- A refresh of a dictionary that has the header of the locale, and as many entries under each scope as
the source. -/
theorem refresh_matching {source : Option Dictionary}
    (htranslates : Translates translate locale)
    (hheader : Entries.get? target headerName = some (ofTexts locale.header)) {sections : List Text}
    (hscopes : ∀ scope ∈ requestedScopes sections (source.getD target),
      Matches (source.getD target) target scope) (translator : σ) :
    let requested := requestedScopes sections (source.getD target)
    ∃ state count, refresh translate.logged (translator, []) locale source sections target = .ok state ∧
      state.target = target ∧ state.saved = List.replicate (count + 1) target ∧
      state.report = ⟨requested.filter (isBare (source.getD target)),
        requested.filter (!isBare (source.getD target) ·), [], []⟩ ∧
      state.translator.2 = requested.filter (isBare (source.getD target)) := by
  intro requested
  have hsame : withHeader locale target = target := Entries.put_same hheader
  obtain ⟨next, hrun⟩ := refresh_scopes_matching htranslates
    ⟨target, [], ⟨[], [], [], []⟩, (translator, [])⟩ hscopes
  simp only [List.nil_append, List.append_nil] at hrun
  unfold refresh
  simp only [hsame]
  rw [hrun]
  generalize (requestedScopes sections (source.getD target)).filter
    (isBare (source.getD target)) = bare
  cases bare with
  | nil => exact ⟨_, 0, rfl, rfl, rfl, rfl, rfl⟩
  | cons scope scopes => exact ⟨_, scopes.length, rfl, rfl, rfl, rfl, rfl⟩

/-- The header is no scope to translate. -/
theorem translatable_scopes_with_header (locale : Locale) (target : Dictionary) :
    translatableScopes (withHeader locale target) = translatableScopes target := by
  unfold withHeader
  induction target with
  | nil => rfl
  | cons entry target ih =>
      obtain ⟨name, value⟩ := entry
      rw [Entries.put]
      by_cases hname : name = headerName
      · rw [if_pos hname]
        simp [translatableScopes, hname]
      · rw [if_neg hname]
        unfold translatableScopes at ih ⊢
        simp only [List.filter_cons]
        split
        · simp only [List.map_cons, ih]
        · exact ih

/-- The header is none of the scopes. -/
theorem scope_with_header (locale : Locale) (target : Dictionary) {scope : Text}
    (h : scope ≠ headerName) : (withHeader locale target).scope? scope = target.scope? scope := by
  unfold scope? withHeader
  rw [Entries.get_put, if_neg h]

/-- A scope to translate is an object under a name other than the header's. -/
theorem scope_of_mem_translatable (hwell : Json.WellFormed (.object source)) {scope : Text}
    (h : scope ∈ translatableScopes source) :
    scope ≠ headerName ∧ ∃ entries, source.scope? scope = some entries := by
  unfold translatableScopes at h
  obtain ⟨⟨name, value⟩, hmem, rfl⟩ := List.mem_map.mp h
  obtain ⟨hmem, hkept⟩ := List.mem_filter.mp hmem
  simp only [Bool.and_eq_true, bne_iff_ne, ne_eq] at hkept
  obtain ⟨members, hmembers⟩ := Option.isSome_iff_exists.mp hkept.2
  cases hwell with
  | object hnames _ =>
      refine ⟨hkept.1, members, ?_⟩
      unfold scope?
      rw [Entries.get_of_mem hnames hmem]
      exact hmembers

end Dictionary

namespace Store

open Dictionary

variable {σ : Type} {translate : Translator σ} {locale : Locale}

/-- Loading keeps the code of the source locale. -/
theorem load_source_code {store next : Store} {tree : FileTree} {code : Text}
    {dictionary : Dictionary} (h : store.load tree code = .ok (dictionary, next)) :
    next.sourceCode = store.sourceCode := by
  rcases store_of_load h with rfl | rfl
  · rfl
  · rfl

/-- The dictionary from which a locale is refreshed: none if it is the source locale itself. -/
def sourceFor (sourceCode : Text) (locale : Locale) (source : Dictionary) : Option Dictionary :=
  if locale.code = sourceCode then none else some source

section Loaded

variable {store kept loaded : Store} {tree : FileTree} {translator : σ} {sections : List Text}
  {source target : Dictionary} {state : RefreshState σ}

/-- A refresh of loaded dictionaries writes what it saved, also if it is stopped. -/
theorem refresh_of_loaded {stopped : Option StoreFault} (hsource : store.source tree = .ok (source, kept))
    (htarget : kept.load tree locale.code = .ok (target, loaded))
    (hend : (match Dictionary.refresh translate translator locale
        (sourceFor store.sourceCode locale source) sections target with
      | .ok state => (state, none)
      | .error state => (state, some StoreFault.incomparable)) = (state, stopped)) :
    store.refresh tree translate translator locale sections =
      match store.writeAll locale.code tree state.saved.reverse with
      | .error (error, tree) =>
        ⟨.error (.file error), state.translator, tree, loaded.keep locale.code state.target⟩
      | .ok tree =>
        ⟨(match stopped with
          | some fault => .error fault
          | none => .ok state.report), state.translator, tree, loaded.keep locale.code state.target⟩ := by
  have hcode : loaded.sourceCode = store.sourceCode :=
    (load_source_code htarget).trans (load_source_code hsource)
  have hdirectory : loaded.directory = store.directory :=
    (load_directory htarget).trans (load_directory hsource)
  have hwrite := write_all_congr hdirectory locale.code tree state.saved.reverse
  unfold sourceFor at hend
  unfold refresh
  cases hrun : Dictionary.refresh translate translator locale
      (if locale.code = store.sourceCode then none else some source) sections target with
  | error reached =>
      rw [hrun] at hend
      obtain ⟨rfl, rfl⟩ := Prod.mk.inj hend
      cases hsaved : store.writeAll locale.code tree reached.saved.reverse with
      | error failed => simp only [hsource, htarget, hcode, hrun, hwrite, hsaved]
      | ok after => simp only [hsource, htarget, hcode, hrun, hwrite, hsaved]
  | ok reached =>
      rw [hrun] at hend
      obtain ⟨rfl, rfl⟩ := Prod.mk.inj hend
      cases hsaved : store.writeAll locale.code tree reached.saved.reverse with
      | error failed => simp only [hsource, htarget, hcode, hrun, hwrite, hsaved]
      | ok after => simp only [hsource, htarget, hcode, hrun, hwrite, hsaved]

/-- A refresh of loaded dictionaries that is not stopped. -/
theorem refresh_eq (hsource : store.source tree = .ok (source, kept))
    (htarget : kept.load tree locale.code = .ok (target, loaded))
    (hstate : Dictionary.refresh translate translator locale
      (sourceFor store.sourceCode locale source) sections target = .ok state) :
    store.refresh tree translate translator locale sections =
      match store.writeAll locale.code tree state.saved.reverse with
      | .error (error, tree) =>
        ⟨.error (.file error), state.translator, tree, loaded.keep locale.code state.target⟩
      | .ok tree =>
        ⟨.ok state.report, state.translator, tree, loaded.keep locale.code state.target⟩ :=
  refresh_of_loaded hsource htarget (by rw [hstate])

/-- A refresh of loaded dictionaries that is stopped. -/
theorem refresh_stopped_eq (hsource : store.source tree = .ok (source, kept))
    (htarget : kept.load tree locale.code = .ok (target, loaded))
    (hstate : Dictionary.refresh translate translator locale
      (sourceFor store.sourceCode locale source) sections target = .error state) :
    store.refresh tree translate translator locale sections =
      match store.writeAll locale.code tree state.saved.reverse with
      | .error (error, tree) =>
        ⟨.error (.file error), state.translator, tree, loaded.keep locale.code state.target⟩
      | .ok tree =>
        ⟨.error .incomparable, state.translator, tree, loaded.keep locale.code state.target⟩ :=
  refresh_of_loaded hsource htarget (by rw [hstate])

end Loaded

/-- The dictionary that a store has for a locale: the one that it keeps, or the one of the file. -/
def Gives (store : Store) (tree : FileTree) (code : Text) (dictionary : Dictionary) : Prop :=
  Entries.get? store.cache code = some dictionary ∨
    Entries.get? store.cache code = none ∧ store.read tree code = .ok dictionary

/-- A dictionary that a store has is loaded, and kept from then on. -/
theorem Gives.load {store : Store} {tree : FileTree} {code : Text} {dictionary : Dictionary}
    (h : store.Gives tree code dictionary) :
    ∃ next, store.load tree code = .ok (dictionary, next) ∧
      Entries.get? next.cache code = some dictionary ∧
      ∀ other ≠ code, Entries.get? next.cache other = Entries.get? store.cache other := by
  rcases h with hkept | ⟨hnone, hread⟩
  · refine ⟨store, ?_, hkept, fun other _ ↦ rfl⟩
    unfold Store.load
    rw [hkept]
  · refine ⟨store.keep code dictionary, load_read hnone hread, ?_, fun other hother ↦ ?_⟩
    · show Entries.get? (Entries.put store.cache code dictionary) code = _
      rw [Entries.get_put, if_pos rfl]
    · show Entries.get? (Entries.put store.cache code dictionary) other = _
      rw [Entries.get_put, if_neg hother]

/-- The dictionaries of the source locale and of another one, loaded one after the other. -/
theorem load_both {store : Store} {tree : FileTree} {source target : Dictionary}
    (hsource : store.Gives tree store.sourceCode source)
    (htarget : store.Gives tree locale.code target) :
    (locale.code = store.sourceCode → target = source) ∧
      ∃ kept loaded, store.source tree = .ok (source, kept) ∧
        kept.load tree locale.code = .ok (target, loaded) ∧
        Entries.get? loaded.cache store.sourceCode = some source := by
  obtain ⟨kept, hkept, hfirst, hothers⟩ := hsource.load
  by_cases hcode : locale.code = store.sourceCode
  · rw [hcode] at htarget ⊢
    obtain ⟨other, hother, -, -⟩ := htarget.load
    obtain ⟨rfl, rfl⟩ := Prod.mk.inj (Except.ok.inj (hother.symm.trans hkept))
    refine ⟨fun _ ↦ rfl, other, other, hkept, ?_, hfirst⟩
    unfold Store.load
    rw [hfirst]
  · have hlater : kept.Gives tree locale.code target := by
      unfold Gives at htarget ⊢
      rw [hothers locale.code hcode]
      refine htarget.imp_right fun hread ↦ ⟨hread.1, ?_⟩
      rw [← hread.2]
      unfold Store.read path
      rw [load_directory hkept]
    obtain ⟨loaded, hloaded, -, hsame⟩ := hlater.load
    refine ⟨fun heq ↦ absurd heq hcode, kept, loaded, hkept, hloaded, ?_⟩
    rw [hsame _ (Ne.symm hcode)]
    exact hfirst

/-- A refresh that gives a report came to its end, and what it saved is written. -/
theorem refresh_of_report {store : Store} {tree : FileTree} {translator : σ} {sections : List Text}
    {source target : Dictionary} {report : RefreshReport}
    (hsource : store.Gives tree store.sourceCode source)
    (htarget : store.Gives tree locale.code target)
    (h : (store.refresh tree translate translator locale sections).result = .ok report) :
    ∃ state after, Dictionary.refresh translate translator locale
        (sourceFor store.sourceCode locale source) sections target = .ok state ∧
      state.report = report ∧ store.writeAll locale.code tree state.saved.reverse = .ok after ∧
      (store.refresh tree translate translator locale sections).tree = after ∧
      (store.refresh tree translate translator locale sections).translator = state.translator := by
  obtain ⟨-, kept, loaded, hkept, hloaded, -⟩ := load_both hsource htarget
  cases hstate : Dictionary.refresh translate translator locale
      (sourceFor store.sourceCode locale source) sections target with
  | error state =>
      rw [refresh_stopped_eq hkept hloaded hstate] at h
      split at h <;> exact absurd h (by simp)
  | ok state =>
      rw [refresh_eq hkept hloaded hstate] at h ⊢
      cases hwritten : store.writeAll locale.code tree state.saved.reverse with
      | error stopped =>
          rw [hwritten] at h
          exact absurd h (by simp)
      | ok after =>
          rw [hwritten] at h
          exact ⟨state, after, rfl, Except.ok.inj h, hwritten, rfl, rfl⟩

/-- Refreshing a locale from itself asks for the scopes of the dictionary as it was before the header
was set. -/
theorem requested_of_source_for {sourceCode : Text} {source target : Dictionary}
    (hsame : locale.code = sourceCode → target = source) (sections : List Text) :
    requestedScopes sections ((sourceFor sourceCode locale source).getD (withHeader locale target)) =
      requestedScopes sections source := by
  unfold sourceFor
  split
  · next hcode =>
      rw [hsame hcode]
      unfold requestedScopes
      rw [Option.getD_none, translatable_scopes_with_header]
  · rfl

/-- The scopes from which a locale is refreshed. -/
theorem scope_of_source_for {sourceCode : Text} {source target : Dictionary}
    (hsame : locale.code = sourceCode → target = source) {scope : Text} (h : scope ≠ headerName) :
    ((sourceFor sourceCode locale source).getD (withHeader locale target)).scope? scope =
      source.scope? scope := by
  unfold sourceFor
  split
  · next hcode =>
      rw [hsame hcode, Option.getD_none]
      exact scope_with_header locale source h
  · rfl

/-- A refresh of a dictionary that has the header of its locale and as many entries under each scope as
the source writes it as it is, and asks for the scopes without entries only. -/
theorem refresh_kept {store : Store} {tree : FileTree} {source target : Dictionary}
    (sections : List Text) (htranslates : Translates translate locale)
    (hsource : store.Gives tree store.sourceCode source)
    (htarget : store.Gives tree locale.code target)
    (hwrite : store.writeFile tree locale.code target = .ok tree)
    (hheader : Entries.get? target headerName = some (ofTexts locale.header))
    (hmatches : ∀ scope ∈ requestedScopes sections
        ((sourceFor store.sourceCode locale source).getD target),
      Matches ((sourceFor store.sourceCode locale source).getD target) target scope)
    (translator : σ) :
    let again := store.refresh tree translate.logged (translator, []) locale sections
    let current := (sourceFor store.sourceCode locale source).getD target
    let requested := requestedScopes sections current
    again.tree = tree ∧
      again.result = .ok ⟨requested.filter (isBare current), requested.filter (!isBare current ·),
        [], []⟩ ∧
      again.translator.2 = requested.filter (isBare current) := by
  intro again current requested
  obtain ⟨-, kept, loaded, hkept, hloaded, -⟩ := load_both hsource htarget
  obtain ⟨state, count, hstate, -, hsaved, hreport, hasked⟩ :=
    refresh_matching htranslates hheader hmatches translator
  have hwritten : store.writeAll locale.code tree state.saved.reverse = .ok tree := by
    rw [hsaved, List.reverse_replicate, List.replicate_succ', write_all_append, hwrite]
  have hagain := refresh_eq hkept hloaded hstate
  rw [hwritten] at hagain
  simp only at hagain
  have htree : again.tree = tree := by rw [show again = _ from hagain]
  have hresult : again.result = .ok state.report := by rw [show again = _ from hagain]
  have htranslator : again.translator = state.translator := by rw [show again = _ from hagain]
  refine ⟨htree, ?_, ?_⟩
  · rw [hresult, hreport]
  · rw [htranslator, hasked]

section Repeating

variable {directory : FilePath} {sourceCode : Text} {tree : FileTree} {source target : Dictionary}

/-- What a refresh that came to its end leaves behind: a dictionary with as many entries under each of
the scopes as the source, in the file and in the store. -/
structure LeavesBehind (directory : FilePath) (sourceCode : Text) (tree : FileTree) (locale : Locale)
    (source target : Dictionary) (scopes : List Text) (first : Refreshed σ) (final : Dictionary) :
    Prop where
  well : Json.WellFormed (.object final)
  own : locale.code = sourceCode → final = withHeader locale source
  header : Entries.get? final headerName = some (ofTexts locale.header)
  reached : ∀ scope ∈ scopes,
    Matches ((sourceFor sourceCode locale source).getD (withHeader locale target)) final scope
  written : (fresh directory sourceCode).writeFile tree locale.code final = .ok first.tree
  sameDirectory : first.store.directory = directory
  sameCode : first.store.sourceCode = sourceCode
  kept : Entries.get? first.store.cache locale.code = some final
  keptSource : locale.code ≠ sourceCode → Entries.get? first.store.cache sourceCode = some source

/-- A refresh over scopes of the source, if what it saves can be written. -/
theorem refresh_leaves
    (hsource : (fresh directory sourceCode).read tree sourceCode = .ok source)
    (htarget : (fresh directory sourceCode).read tree locale.code = .ok target)
    (hscopes : ∀ name value, Entries.get? target name = some value → name ≠ headerName →
      value.members?.isSome = true)
    (htranslates : Translates translate locale) {sections : List Text}
    (hsections : ∀ scope ∈ requestedScopes sections source, scope ∈ translatableScopes source)
    (translator : σ) {report : RefreshReport}
    (hran : ((fresh directory sourceCode).refresh tree translate translator locale sections).result =
      .ok report) :
    (locale.code = sourceCode → target = source) ∧ report.failed = [] ∧
      ∃ final, LeavesBehind directory sourceCode tree locale source target
        (requestedScopes sections source)
        ((fresh directory sourceCode).refresh tree translate translator locale sections) final := by
  let current := (sourceFor sourceCode locale source).getD (withHeader locale target)
  obtain ⟨hsame, kept, loaded, hkept, hloaded, hcached⟩ :=
    load_both (show (fresh directory sourceCode).Gives tree sourceCode source from
      .inr ⟨rfl, hsource⟩) (.inr ⟨rfl, htarget⟩)
  change locale.code = sourceCode → target = source at hsame
  have hcurrent : ∀ scope ∈ requestedScopes sections current,
      scope ≠ headerName ∧ ∃ entries, current.scope? scope = some entries := by
    intro scope hmem
    rw [requested_of_source_for hsame] at hmem
    obtain ⟨hheader, entries, hscope⟩ :=
      scope_of_mem_translatable (read_well_formed hsource) (hsections scope hmem)
    exact ⟨hheader, entries, (scope_of_source_for hsame hheader).trans hscope⟩
  have hwell : Json.WellFormed (.object current) := by
    unfold current sourceFor
    split
    · exact put_well_formed (read_well_formed htarget) _ (header_well_formed locale)
    · exact read_well_formed hsource
  obtain ⟨state, hstate, hfinishing, hlast⟩ :=
    refresh_finishes (HoldsScopes.with_header hscopes locale) (read_well_formed htarget) htranslates
      hwell hcurrent translator
  obtain ⟨earlier, hsaved⟩ := List.head?_eq_some_iff.mp hlast
  have hfirst := refresh_eq hkept hloaded hstate
  rw [hsaved, List.reverse_cons, write_all_append] at hfirst
  cases hwrite : (fresh directory sourceCode).writeFile tree locale.code state.target with
  | error error =>
      rw [hwrite] at hfirst
      rw [hfirst] at hran
      exact absurd hran (by simp)
  | ok after =>
      rw [hwrite] at hfirst
      change (fresh directory sourceCode).refresh tree translate translator locale sections =
        ⟨.ok state.report, state.translator, after, loaded.keep locale.code state.target⟩ at hfirst
      rw [hfirst] at hran ⊢
      obtain rfl := Except.ok.inj hran
      refine ⟨hsame, hfinishing.failed, state.target, hfinishing.well, fun hcode ↦ ?_,
        hfinishing.header.trans (get_with_header locale target), fun scope hmem ↦ ?_, hwrite, ?_, ?_,
        ?_, fun hcode ↦ ?_⟩
      · rw [← hsame hcode]
        exact hfinishing.own (if_pos hcode)
      · rw [← hfinishing.current]
        rw [← requested_of_source_for hsame] at hmem
        exact hfinishing.reached scope hmem
      · exact (load_directory hloaded).trans (load_directory hkept)
      · exact (load_source_code hloaded).trans (load_source_code hkept)
      · show Entries.get? (Entries.put loaded.cache locale.code state.target) locale.code = _
        rw [Entries.get_put, if_pos rfl]
      · show Entries.get? (Entries.put loaded.cache locale.code state.target) sourceCode = _
        rw [Entries.get_put, if_neg (Ne.symm hcode)]
        exact hcached

/-- The store that a refresh leaves, or a fresh one that finds the source unchanged, has the refreshed
dictionary and, for another locale, the source. -/
theorem LeavesBehind.gives {scopes : List Text} {first : Refreshed σ} {final : Dictionary}
    (h : LeavesBehind directory sourceCode tree locale source target scopes first final) {later : Store}
    (hlater : later = first.store ∨ later = fresh directory sourceCode ∧
      (locale.code ≠ sourceCode → later.read first.tree sourceCode = .ok source)) :
    later.directory = directory ∧ later.sourceCode = sourceCode ∧
      later.Gives first.tree locale.code final ∧
      (locale.code ≠ sourceCode → later.Gives first.tree sourceCode source) := by
  rcases hlater with rfl | ⟨rfl, hread⟩
  · exact ⟨h.sameDirectory, h.sameCode, .inl h.kept, fun hne ↦ .inl (h.keptSource hne)⟩
  · exact ⟨rfl, rfl, .inr ⟨rfl, read_of_write_file h.well h.written⟩,
      fun hne ↦ .inr ⟨rfl, hread hne⟩⟩

/-- A store that has the dictionary which a refresh made, and the source for another locale, finds for
the next refresh the entries that the first one found. -/
theorem current_again {store : Store} {final : Dictionary}
    (htarget : store.Gives tree locale.code final)
    (hsource : locale.code ≠ sourceCode → store.Gives tree sourceCode source)
    (hsame : locale.code = sourceCode → target = source)
    (hown : locale.code = sourceCode → final = withHeader locale source) :
    ∃ other, store.Gives tree sourceCode other ∧ (sourceFor sourceCode locale other).getD final =
      (sourceFor sourceCode locale source).getD (withHeader locale target) := by
  unfold sourceFor
  by_cases heq : locale.code = sourceCode
  · refine ⟨final, heq ▸ htarget, ?_⟩
    rw [if_pos heq, if_pos heq, Option.getD_none, Option.getD_none, hown heq, hsame heq]
  · refine ⟨source, hsource heq, ?_⟩
    rw [if_neg heq]
    rfl

/-- No scope is bare if and only if the bare scopes are none, and then the others are all. -/
theorem filter_bare_iff {source : Dictionary} {scopes : List Text} :
    (∀ scope ∈ scopes, isBare source scope = false) ↔
      scopes.filter (isBare source) = [] ∧ scopes.filter (!isBare source ·) = scopes := by
  rw [List.filter_eq_nil_iff, List.filter_eq_self]
  constructor
  · intro hall
    exact ⟨fun scope hmem ↦ by simp [hall scope hmem], fun scope hmem ↦ by simp [hall scope hmem]⟩
  · rintro ⟨hnone, -⟩ scope hmem
    simpa using hnone scope hmem

/-- A refresh over all scopes of the source, with a translator that keeps the keys, comes to its end
without a failed scope. The same refresh again, with the store of the first one or with a fresh one
that finds the source unchanged, leaves the files as they are and fails for no scope. It asks the
translator for exactly the scopes that have no entries in the source and skips the others, so that it
asks for nothing and skips all scopes if and only if every scope of the source has an entry. -/
theorem refresh_again
    (hsource : (fresh directory sourceCode).read tree sourceCode = .ok source)
    (htarget : (fresh directory sourceCode).read tree locale.code = .ok target)
    (hscopes : ∀ name value, Entries.get? target name = some value → name ≠ headerName →
      value.members?.isSome = true)
    (htranslates : Translates translate locale) {sections : List Text}
    (hsections : ∀ scope, scope ∈ requestedScopes sections source ↔
      scope ∈ translatableScopes source) (translator next : σ) {report : RefreshReport}
    (hran : ((fresh directory sourceCode).refresh tree translate translator locale sections).result =
      .ok report) {later : Store}
    (hlater :
      let first := (fresh directory sourceCode).refresh tree translate translator locale sections
      later = first.store ∨ later = fresh directory sourceCode ∧ (locale.code ≠ sourceCode →
        later.read first.tree sourceCode = .ok source)) :
    let first := (fresh directory sourceCode).refresh tree translate translator locale sections
    let again := later.refresh first.tree translate.logged (next, []) locale sections
    let requested := requestedScopes sections source
    report.failed = [] ∧ again.tree = first.tree ∧
      again.result = .ok ⟨requested.filter (isBare source), requested.filter (!isBare source ·),
        [], []⟩ ∧
      again.translator.2 = requested.filter (isBare source) ∧
      ((again.translator.2 = [] ∧ again.result = .ok ⟨[], requested, [], []⟩) ↔
        ∀ scope ∈ translatableScopes source, isBare source scope = false) := by
  intro first again requested
  obtain ⟨hsame, hfailed, final, hleaves⟩ := refresh_leaves hsource htarget hscopes htranslates
    (fun scope hmem ↦ (hsections scope).mp hmem) translator hran
  obtain ⟨hlaterDirectory, hlaterCode, hgivesTarget, hgivesSource⟩ := hleaves.gives hlater
  -- the dictionary from which the second refresh is made
  obtain ⟨other, hother, hcurrent⟩ := current_again hgivesTarget hgivesSource hsame
    hleaves.own
  have hsourceAgain : later.Gives first.tree later.sourceCode other := by
    rw [hlaterCode]
    exact hother
  have hrequested := requested_of_source_for hsame sections
  have hagainWrite : later.writeFile first.tree locale.code final = .ok first.tree := by
    have hfresh : later.writeFile first.tree locale.code final =
        (fresh directory sourceCode).writeFile first.tree locale.code final :=
      write_file_congr hlaterDirectory ..
    rw [hfresh, write_file_again hleaves.written]
    exact hleaves.written
  obtain ⟨htree, hresult, hasked⟩ :=
    refresh_kept sections htranslates hsourceAgain hgivesTarget hagainWrite hleaves.header
      (by rw [hlaterCode, hcurrent, hrequested]; exact hleaves.reached) next
  have hbare (scope : Text) (hmem : scope ∈ requested) :
      isBare ((sourceFor sourceCode locale source).getD (withHeader locale target)) scope =
        isBare source scope := by
    obtain ⟨hname, -⟩ :=
      scope_of_mem_translatable (read_well_formed hsource) ((hsections scope).mp hmem)
    unfold isBare
    rw [scope_of_source_for hsame hname]
  rw [hlaterCode, hcurrent, hrequested, List.filter_congr hbare] at hasked
  rw [hlaterCode, hcurrent, hrequested, List.filter_congr hbare,
    List.filter_congr fun scope hmem ↦ congrArg not (hbare scope hmem)] at hresult
  refine ⟨hfailed, htree, hresult, hasked, ?_⟩
  have hentries : (∀ scope ∈ translatableScopes source, isBare source scope = false) ↔
      requested.filter (isBare source) = [] ∧ requested.filter (!isBare source ·) = requested := by
    rw [← filter_bare_iff]
    exact forall_congr' fun scope ↦ imp_congr_left (hsections scope).symm
  rw [hentries, show again.translator.2 = _ from hasked, show again.result = _ from hresult]
  simp only [Except.ok.injEq, RefreshReport.mk.injEq, and_true]
  exact ⟨fun h ↦ h.2, fun h ↦ ⟨h.1, h⟩⟩

/-- A source dictionary made from one page without shared texts has an empty shared scope, for which
the translator is asked again and again. -/
theorem refresh_again_shared :
    let english : Locale := ⟨"en".toList, [], "en_US".toList, "en".toList, "en".toList,
      "English".toList, [], none, []⟩
    let german : Locale := ⟨"de".toList, "de/".toList, "de_DE".toList, "de".toList, "de".toList,
      "Deutsch".toList, [], none, []⟩
    let source : Dictionary := [(headerName, ofTexts english.header), ("shared".toList, .object []),
      ("home".toList, .object [("h1".toList, .string "Teas".toList)])]
    let translate : Translator Nat := fun asked _ entries _ ↦
      (.ok (Entries.ofList (entries.map fun (key, _) ↦ (key, .string "Tees".toList))), asked + 1)
    let place : Location := ["work".toList, "locales".toList]
    let base : FileTree := ⟨["work".toList], [(["work".toList], .directory), (place, .directory)]⟩
    let tree := base.setNode (place ++ ["en.json".toList]) (.file (.text (fileText (.object source))))
    let store := fresh (FilePath.ofText "locales".toList) "en".toList
    let first := store.refresh tree translate 0 german []
    let again := first.store.refresh first.tree translate.logged (2, []) german []
    merge [] [("home".toList, ⟨[("h1".toList, "Teas".toList)], []⟩)] english.header
        ["home".toList] = source ∧
      first.result = .ok ⟨["shared".toList, "home".toList], [], [], []⟩ ∧
      again.tree = first.tree ∧ again.translator.2 = ["shared".toList] ∧
      again.result = .ok ⟨["shared".toList], ["home".toList], [], []⟩ := by
  intro english german source translate place base tree store first again
  have hwell : Json.WellFormed (.object source) := by
    refine .object (by decide) fun member hmem ↦ ?_
    rcases List.mem_cons.mp hmem with rfl | hmem
    · exact header_well_formed english
    rcases List.mem_cons.mp hmem with rfl | hmem
    · exact .object (by decide) fun member hmem ↦ absurd hmem List.not_mem_nil
    rw [List.mem_singleton.mp hmem]
    refine .object (by decide) fun member hmem ↦ ?_
    rw [List.mem_singleton.mp hmem]
    exact .string _
  have hwrite : store.writeFile base "en".toList source = .ok tree := rfl
  have hsource : store.read tree "en".toList = .ok source := read_of_write_file hwell hwrite
  have htarget : store.read tree german.code = .ok [] := rfl
  have htranslates : Translates translate german := by
    intro asked scope entries
    refine ⟨_, rfl, .object (Entries.of_list_nodup _) fun member hmem ↦ ?_, fun key ↦ ?_⟩
    · obtain ⟨⟨key, _⟩, -, rfl⟩ := List.mem_map.mp (Entries.mem_of_list hmem)
      exact .string _
    · rw [Entries.mem_names_of_list]
      simp [Entries.names]
  have hran : first.result = .ok ⟨["shared".toList, "home".toList], [], [], []⟩ := by decide +kernel
  obtain ⟨-, htree, hresult, hasked, -⟩ := refresh_again hsource htarget (by simp) htranslates
    (fun scope ↦ Iff.rfl) 0 2 hran (.inl rfl)
  have hbare : (requestedScopes [] source).filter (isBare source) = ["shared".toList] := by decide
  have hothers : (requestedScopes [] source).filter (!isBare source ·) = ["home".toList] := by decide
  rw [hbare] at hasked hresult
  rw [hothers] at hresult
  refine ⟨rfl, hran, htree, ?_, hresult⟩
  -- compared as it stands: unfolding would run the refresh
  with_reducible exact hasked

end Repeating

end Store

end LocalizedSite
