import LocalizedSite.Proofs.Dictionary.Account

/-!
# The header in a refresh

The header is no scope to translate, but a refresh can be asked for it by name. It is then treated as any
other scope: if the source's header has another number of entries than that of the locale, the translator
gets it (`OffersHeader`). `Store.refresh_header_iff` says when that happens and what it leaves in the file.
-/

namespace LocalizedSite

namespace Dictionary

variable {σ : Type} {translate : Translator σ} {code : Text} {locale : Locale}
  {source target : Dictionary}

/-- The source has a header with another number of entries than the header of a locale, which is not the
source locale. -/
def OffersHeader (sourceCode : Text) (locale : Locale) (source : Dictionary) : Prop :=
  locale.code ≠ sourceCode ∧ ∃ entries, source.scope? headerName = some entries ∧
    entries.length ≠ locale.header.length

/-- The header of a locale is complete for a scope with as many entries. -/
theorem is_complete_header (entries : Entries Json) (locale : Locale) :
    isComplete? entries (some (ofTexts locale.header)) =
      some (locale.header.length == entries.length) :=
  rfl

/-- The header of the locale itself is incomplete only if the source offers another one. -/
theorem standing_header_iff (htarget : Entries.get? target headerName = some (ofTexts locale.header)) :
    standing? ((Store.sourceFor code locale source).getD target) target headerName =
      some (some false) ↔ OffersHeader code locale source := by
  unfold Store.sourceFor OffersHeader
  by_cases hcode : locale.code = code
  · have hscope : target.scope? headerName = some (Entries.mapValues .string locale.header) := by
      rw [scope?, htarget]
      rfl
    rw [if_pos hcode, Option.getD_none, standing?, hscope, htarget, Option.map_some,
      is_complete_header]
    have hlength : (Entries.mapValues Json.string locale.header).length = locale.header.length :=
      List.length_map _
    rw [hlength, beq_self_eq_true]
    exact iff_of_false (by simp) fun hoffers ↦ hoffers.1 hcode
  · rw [if_neg hcode, Option.getD_some, standing?, htarget]
    cases hscope : source.scope? headerName with
    | none => simp
    | some entries =>
        rw [Option.map_some, is_complete_header]
        simp [hcode, Ne, eq_comm (a := locale.header.length)]

/-- What a refresh has done to the header after some scopes. The translator was asked for it if it was gone
through and the source offers one, and it is that of the locale unless a translation was accepted. -/
structure HeaderAccount (code : Text) (locale : Locale) (source : Dictionary) (done : List Text)
    (state : RefreshState (σ × List Call)) : Prop where
  asked : (∃ call ∈ state.translator.2, call.scope = headerName) ↔
    headerName ∈ done ∧ OffersHeader code locale source
  translated : headerName ∈ state.report.translated ↔
    ∃ call ∈ state.translator.2, call.scope = headerName ∧ call.accepted?.isSome = true
  untouched : headerName ∉ state.report.translated →
    Entries.get? state.target headerName = some (ofTexts locale.header)
  rewritten : headerName ∈ state.report.translated → ∃ entries translation : Entries Json,
    source.scope? headerName = some entries ∧
      Entries.get? state.target headerName = some (.object translation) ∧
      ∀ key, key ∈ Entries.names translation ↔ key ∈ Entries.names entries
  well : Json.WellFormed (.object state.target)
  last : state.saved.head? = some state.target ∨
    state.saved = [] ∧ state.report.translated = [] ∧ state.report.failed = []

namespace HeaderAccount

variable {done : List Text} {state next : RefreshState (σ × List Call)} {scope : Text}

/-- At the beginning the header is that of the locale. -/
theorem start (code : Text) (locale : Locale) (source : Dictionary)
    (hwell : Json.WellFormed (.object target)) (translator : σ) :
    HeaderAccount code locale source []
      ⟨withHeader locale target, [], ⟨[], [], [], []⟩, (translator, [])⟩ where
  asked := by simp
  translated := by simp
  untouched _ := get_with_header locale target
  rewritten := by simp
  well := put_well_formed hwell _ (header_well_formed locale)
  last := .inr ⟨rfl, rfl, rfl⟩

/-- The header is incomplete only if the source offers one. -/
theorem offers_of_stale (h : HeaderAccount code locale source done state)
    (hstale : standing? ((Store.sourceFor code locale source).getD state.target) state.target
      headerName = some (some false)) : OffersHeader code locale source := by
  -- A translated header was offered before; any other one is still that of the locale.
  by_cases htranslated : headerName ∈ state.report.translated
  · obtain ⟨call, hcall, hscope, -⟩ := h.translated.mp htranslated
    exact (h.asked.mp ⟨call, hcall, hscope⟩).2
  · exact (standing_header_iff (h.untouched htranslated)).mp hstale

/-- If the source offers a header, then the first time that it is gone through it is incomplete. -/
theorem mem_of_not_stale (h : HeaderAccount code locale source done state)
    (hoffers : OffersHeader code locale source)
    (hstanding : standing? ((Store.sourceFor code locale source).getD state.target) state.target
      headerName ≠ some (some false)) : headerName ∈ done := by
  by_contra hnew
  -- A header that was not gone through is that of the locale, which is not what the source offers.
  have hnone : headerName ∉ state.report.translated := fun hmem ↦ by
    obtain ⟨call, hcall, hscope, -⟩ := h.translated.mp hmem
    exact hnew (h.asked.mp ⟨call, hcall, hscope⟩).1
  exact hstanding ((standing_header_iff (h.untouched hnone)).mpr hoffers)

/-- One more scope, for which the translator is not asked. -/
theorem asked_of_not_stale (h : HeaderAccount code locale source done state)
    (hstanding : standing? ((Store.sourceFor code locale source).getD state.target) state.target
      scope ≠ some (some false)) :
    (∃ call ∈ state.translator.2, call.scope = headerName) ↔
      headerName ∈ done ++ [scope] ∧ OffersHeader code locale source := by
  rw [h.asked, List.mem_append, List.mem_singleton]
  refine ⟨fun hasked ↦ ⟨.inl hasked.1, hasked.2⟩, fun ⟨hmem, hoffers⟩ ↦ ⟨?_, hoffers⟩⟩
  rcases hmem with hmem | rfl
  · exact hmem
  · exact h.mem_of_not_stale hoffers hstanding

/-- One more scope, for which the translator is asked. -/
theorem asked_of_stale (h : HeaderAccount code locale source done state) {call : Call}
    (hstanding : standing? ((Store.sourceFor code locale source).getD state.target) state.target
      call.scope = some (some false)) :
    (∃ found ∈ state.translator.2 ++ [call], found.scope = headerName) ↔
      headerName ∈ done ++ [call.scope] ∧ OffersHeader code locale source := by
  by_cases hscope : call.scope = headerName
  · rw [hscope] at hstanding ⊢
    exact iff_of_true ⟨call, by simp, hscope⟩ ⟨by simp, h.offers_of_stale hstanding⟩
  · have hsame : (∃ found ∈ state.translator.2 ++ [call], found.scope = headerName) ↔
        ∃ found ∈ state.translator.2, found.scope = headerName := by
      simp [or_and_right, exists_or, hscope]
    rw [hsame, h.asked]
    simp [Ne.symm hscope]

/-- One more scope, for which the translation was not accepted. -/
theorem refused (h : HeaderAccount code locale source done state) (call : Call)
    (hstanding : standing? ((Store.sourceFor code locale source).getD state.target) state.target
      call.scope = some (some false)) (hrefused : call.accepted? = none) (translator : σ) :
    HeaderAccount code locale source (done ++ [call.scope])
      ⟨state.target, state.target :: state.saved,
        { state.report with failed := state.report.failed ++ [call.scope] },
        (translator, state.translator.2 ++ [call])⟩ where
  asked := h.asked_of_stale hstanding
  translated := by
    refine h.translated.trans ?_
    simp [or_and_right, exists_or, hrefused]
  untouched := h.untouched
  rewritten := h.rewritten
  well := h.well
  last := .inl rfl

/-- One more scope, for which the translation was accepted. -/
theorem accepted (h : HeaderAccount code locale source done state)
    (call : Call)
    (hstanding : standing? ((Store.sourceFor code locale source).getD state.target) state.target
      call.scope = some (some false)) {translation : Entries Json}
    (hentries : ((Store.sourceFor code locale source).getD state.target).scope? call.scope =
      some call.entries)
    (hwell : Json.WellFormed (.object translation))
    (haccepted : call.accepted? = some translation) (translator : σ) :
    HeaderAccount code locale source (done ++ [call.scope])
      ⟨Entries.put state.target call.scope (.object translation),
        Entries.put state.target call.scope (.object translation) :: state.saved,
        { state.report with translated := state.report.translated ++ [call.scope] },
        (translator, state.translator.2 ++ [call])⟩ where
  asked := h.asked_of_stale hstanding
  translated := by
    rw [List.mem_append, List.mem_singleton, h.translated]
    simp [or_and_right, exists_or, haccepted, eq_comm (a := headerName)]
  untouched hnone := by
    simp only [List.mem_append, List.mem_singleton, not_or] at hnone
    rw [Entries.get_put, if_neg hnone.2]
    exact h.untouched hnone.1
  rewritten hmem := by
    by_cases hscope : headerName = call.scope
    -- The source locale offers no header, so the entries are those of the source.
    · have hoffers := h.offers_of_stale (hscope ▸ hstanding)
      rw [Store.sourceFor, if_neg hoffers.1, Option.getD_some, ← hscope] at hentries
      exact ⟨call.entries, translation, hentries, by rw [Entries.get_put, if_pos hscope],
        (Call.answer_of_accepted haccepted).2⟩
    · simp only [List.mem_append, List.mem_singleton, hscope, or_false] at hmem
      rw [Entries.get_put, if_neg hscope]
      exact h.rewritten hmem
  well := put_well_formed h.well _ hwell
  last := .inl rfl

/-- One more scope. -/
theorem step (h : HeaderAccount code locale source done state)
    (hmappings : AnswersMappings translate locale)
    (hafter : refreshScope translate.recorded locale (Store.sourceFor code locale source) state scope =
      .ok next) : HeaderAccount code locale source (done ++ [scope]) next := by
  rcases refresh_scope_cases (Store.sourceFor code locale source) state scope with
    ⟨-, hstops⟩ | ⟨habsent, hends⟩ | ⟨hfinished, hends⟩ |
    ⟨entries, answer, following, hstale, hentries, hcall, hcases⟩
  · exact absurd (hafter.symm.trans hstops) (by simp)
  · obtain rfl := Except.ok.inj (hafter.symm.trans hends)
    exact ⟨h.asked_of_not_stale (by rw [habsent]; simp), h.translated, h.untouched, h.rewritten,
      h.well, h.last⟩
  · obtain rfl := Except.ok.inj (hafter.symm.trans hends)
    exact ⟨h.asked_of_not_stale (by rw [hfinished]; simp), h.translated, h.untouched, h.rewritten,
      h.well, h.last⟩
  · obtain ⟨rfl, rfl⟩ := Prod.mk.inj hcall
    rcases hcases with ⟨hrefused, hends⟩ | ⟨translation, haccepted, hends⟩
    · obtain rfl := Except.ok.inj (hafter.symm.trans hends)
      exact h.refused ⟨scope, entries, _⟩ hstale hrefused _
    · obtain rfl := Except.ok.inj (hafter.symm.trans hends)
      exact h.accepted ⟨scope, entries, _⟩ hstale hentries
        (hmappings _ _ _ _ (Call.answer_of_accepted haccepted).1) haccepted _

/-- Some more scopes. -/
theorem run (h : HeaderAccount code locale source done state)
    (hmappings : AnswersMappings translate locale) {scopes : List Text}
    (hafter : refreshScopes translate.recorded locale (Store.sourceFor code locale source) state scopes =
      .ok next) : HeaderAccount code locale source (done ++ scopes) next := by
  induction scopes generalizing done state with
  | nil =>
      obtain rfl := Except.ok.inj hafter
      rwa [List.append_nil]
  | cons scope scopes ih =>
      rw [refreshScopes] at hafter
      split at hafter
      · exact absurd hafter (by simp)
      · next following hfirst =>
          have hend := ih (h.step hmappings hfirst) hafter
          rwa [List.append_assoc] at hend

/-- The header is that of the locale in the end exactly if no translation was accepted for it, since a
translation has the keys of a header with another number of entries. -/
theorem header_eq_iff (h : HeaderAccount code locale source done state)
    (hwell : Json.WellFormed (.object source)) :
    Entries.get? state.target headerName = some (ofTexts locale.header) ↔
      headerName ∉ state.report.translated := by
  refine ⟨fun hheader hmem ↦ ?_, h.untouched⟩
  obtain ⟨call, hcall, hscope, -⟩ := h.translated.mp hmem
  obtain ⟨-, offered, hoffered, hlength⟩ := (h.asked.mp ⟨call, hcall, hscope⟩).2
  obtain ⟨entries, translation, hentries, hget, hkeys⟩ := h.rewritten hmem
  obtain rfl := Option.some.inj (hoffered.symm.trans hentries)
  obtain rfl : translation = Entries.mapValues .string locale.header :=
    Json.object.inj (Option.some.inj (hget.symm.trans hheader))
  have hnodup : (Entries.mapValues Json.string locale.header).names.Nodup := by
    cases header_well_formed locale with
    | object hnames _ => exact hnames
  -- The translation has the keys of the source, and so as many entries as the header that was offered.
  refine hlength ?_
  rw [← length_eq_of_names hnodup (names_nodup_of_scope hwell hentries) hkeys]
  exact List.length_map _

end HeaderAccount

/-- The header is among the scopes of a refresh only if it was asked for. -/
theorem header_mem_requested_iff (hwell : Json.WellFormed (.object source)) {sections : List Text} :
    headerName ∈ requestedScopes sections source ↔ headerName ∈ sections := by
  unfold requestedScopes
  split
  · next hnone =>
      rw [List.isEmpty_iff.mp hnone]
      exact iff_of_false (fun hmem ↦ (scope_of_mem_translatable hwell hmem).1 rfl) List.not_mem_nil
  · rfl

end Dictionary

namespace Store

open Dictionary

variable {σ : Type} {translate : Translator σ} {locale : Locale}

/-- A refresh that gives a report, whatever it was asked for. The translator was asked for the header
exactly if the header is among the scopes asked for and the source has one with another number of entries
than that of the locale, which is not the source locale. The header is reported as translated exactly if
such an answer was accepted, and otherwise it is that of the locale in the file. -/
theorem refresh_header_iff {store : Store} {tree : FileTree} {source target : Dictionary}
    {sections : List Text} {report : RefreshReport}
    (hsource : store.Gives tree store.sourceCode source)
    (htarget : store.Gives tree locale.code target)
    (hwellSource : Json.WellFormed (.object source)) (hwellTarget : Json.WellFormed (.object target))
    (hmappings : AnswersMappings translate locale) (translator : σ)
    (hreport : (store.refresh tree translate translator locale sections).result = .ok report) :
    let after := (store.refresh tree translate translator locale sections).tree
    let calls := (store.refresh tree translate.recorded (translator, []) locale sections).translator.2
    ((∃ call ∈ calls, call.scope = headerName) ↔
        headerName ∈ sections ∧ OffersHeader store.sourceCode locale source) ∧
      (headerName ∈ report.translated ↔
        ∃ call ∈ calls, call.scope = headerName ∧ call.accepted?.isSome = true) ∧
      ∃ final, store.read after locale.code = .ok final ∧
        (Entries.get? final headerName = some (ofTexts locale.header) ↔
          headerName ∉ report.translated) := by
  intro after calls
  obtain ⟨hsame, -⟩ := load_both hsource htarget
  have hrecorded : store.refresh tree translate translator locale sections =
      ⟨(store.refresh tree translate.recorded (translator, []) locale sections).result,
        (store.refresh tree translate.recorded (translator, []) locale sections).translator.1,
        (store.refresh tree translate.recorded (translator, []) locale sections).tree,
        (store.refresh tree translate.recorded (translator, []) locale sections).store⟩ :=
    refresh_recorded store tree translator [] sections
  have hresult : (store.refresh tree translate.recorded (translator, []) locale sections).result =
      .ok report := by
    rw [hrecorded] at hreport
    exact hreport
  obtain ⟨state, written, hstate, rfl, hwritten, htree, htranslator⟩ :=
    refresh_of_report hsource htarget hresult
  obtain ⟨final, hfinal, -⟩ := scopes_of_refresh hstate
  have haccount := (HeaderAccount.start store.sourceCode locale source hwellTarget translator).run
    hmappings hfinal
  rw [List.nil_append, requested_of_source_for hsame] at haccount
  -- The last dictionary that was saved is the final one, so the file holds it.
  obtain ⟨saved, hends, hhead, -⟩ := refresh_ends hfinal haccount.last
  obtain rfl := Except.ok.inj (hstate.symm.trans hends)
  obtain ⟨earlier, hsaved⟩ := List.head?_eq_some_iff.mp hhead
  have hafter : store.writeFile tree locale.code final.target = .ok after := by
    simp only [hsaved, List.reverse_cons, write_all_append] at hwritten
    split at hwritten
    · next last hlast =>
        rw [hlast, show after = _ from congrArg Refreshed.tree hrecorded, htree]
        exact congrArg Except.ok (Except.ok.inj hwritten)
    · exact absurd hwritten (by simp)
  have hcalls : calls = final.translator.2 := congrArg Prod.snd htranslator
  rw [hcalls, ← header_mem_requested_iff hwellSource]
  exact ⟨haccount.asked, haccount.translated, final.target,
    read_of_write_file haccount.well hafter, haccount.header_eq_iff hwellSource⟩

/-- A header with one entry, which is asked for by name, is translated. -/
theorem refresh_header_iff_asked :
    let german : Locale := ⟨"de".toList, "de/".toList, "de_DE".toList, "de".toList, "de".toList,
      "Deutsch".toList, [], none, []⟩
    let source : Dictionary := [(headerName, .object [("locale".toList, .string "en".toList)])]
    let answer : Entries Json := [("locale".toList, .string "[de] en".toList)]
    let translate : Translator Unit := fun _ _ _ _ ↦ (.ok answer, ())
    let place : Location := ["work".toList, "locales".toList]
    let tree : FileTree := ⟨["work".toList], [(["work".toList], .directory), (place, .directory)]⟩
    let store : Store := ⟨FilePath.ofText "locales".toList, "en".toList,
      [("en".toList, source), ("de".toList, [])]⟩
    let refreshed := store.refresh tree translate () german [headerName]
    refreshed.result = .ok ⟨[headerName], [], [], []⟩ ∧
      ∃ final, store.read refreshed.tree german.code = .ok final ∧
        Entries.get? final headerName ≠ some (ofTexts german.header) := by
  intro german source answer translate place tree store refreshed
  have hentry (text : Text) : Json.WellFormed (.object [("locale".toList, .string text)]) :=
    .object (List.nodup_singleton _) fun member hmem ↦ by
      rw [List.mem_singleton.mp hmem]
      exact .string _
  have hwellSource : Json.WellFormed (.object source) :=
    .object (List.nodup_singleton _) fun member hmem ↦ by
      rw [List.mem_singleton.mp hmem]
      exact hentry _
  have hmappings : AnswersMappings translate german := fun _ _ _ _ hanswer ↦ by
    obtain rfl := Except.ok.inj hanswer
    exact hentry _
  have hran : refreshed.result = .ok ⟨[headerName], [], [], []⟩ := by decide +kernel
  have hsource : store.Gives tree store.sourceCode source := .inl rfl
  have htarget : store.Gives tree german.code [] := .inl rfl
  obtain ⟨-, -, final, hfinal, hheader⟩ := refresh_header_iff hsource htarget hwellSource
    (.object List.nodup_nil (by simp)) hmappings () hran
  exact ⟨hran, final, hfinal, fun hsame ↦ hheader.mp hsame (List.mem_singleton.mpr rfl)⟩

end Store

end LocalizedSite
