import LocalizedSite.Dictionary.Refresh
import LocalizedSite.Proofs.Json.WellFormed

/-!
# Refreshing scope by scope

## Going through scopes again

If the translator answers a scope always alike, then what a refresh does with a scope depends on the
scope's value alone (`advance`). Going through the scopes of a part of a refresh once more, with the
header that a refresh begins with, ends where that part ended (`advance_all_again`), because a value
that was replaced is replaced by itself (`Settled`).
-/

namespace LocalizedSite.Dictionary

variable (answer : Text → Except TranslationFault (Entries Json)) (source : Dictionary)

/-- The value that replaces the one held under a scope, if it is replaced. -/
def replacement? (scope : Text) (held : Option Json) : Option Json :=
  match source.scope? scope with
  | none => none
  | some entries =>
    match isComplete? entries held with
    | some false =>
      match answer scope with
      | .error _ => none
      | .ok translation =>
        match checkKeys scope (Entries.names entries) (Entries.names translation) with
        | .error _ => none
        | .ok () => some (.object translation)
    | _ => none

/-- The dictionary after one scope. -/
def advance (target : Dictionary) (scope : Text) : Dictionary :=
  match replacement? answer source scope (Entries.get? target scope) with
  | some value => Entries.put target scope value
  | none => target

/-- The dictionary after several scopes. -/
def advanceAll (target : Dictionary) (scopes : List Text) : Dictionary :=
  scopes.foldl (advance answer source) target

/-- A value that is replaced by nothing but itself. -/
def Settled (scope : Text) (held : Option Json) : Prop :=
  ∀ value, replacement? answer source scope held = some value → held = some value

variable {answer source}

/-- A scope is replaced by the translator's answer for it. -/
theorem replacement_eq {scope : Text} {held : Option Json} {value : Json}
    (h : replacement? answer source scope held = some value) :
    ∃ translation, answer scope = .ok translation ∧ value = .object translation := by
  unfold replacement? at h
  split at h
  · exact absurd h (by simp)
  · split at h
    · split at h
      · exact absurd h (by simp)
      · next translation hanswer =>
          split at h
          · exact absurd h (by simp)
          · exact ⟨translation, hanswer, (Option.some.inj h).symm⟩
    · exact absurd h (by simp)

/-- The value of one name after one scope. -/
theorem get_advance (target : Dictionary) (scope name : Text) :
    Entries.get? (advance answer source target scope) name =
      if name = scope then
        (replacement? answer source scope (Entries.get? target scope)).or
          (Entries.get? target scope)
      else Entries.get? target name := by
  unfold advance
  cases hreplaced : replacement? answer source scope (Entries.get? target scope) with
  | none =>
      by_cases h : name = scope
      · simp [h]
      · simp [h]
  | some value => simp [Entries.get_put]

/-- A scope is settled once it was gone through. -/
theorem settled_advance (target : Dictionary) (scope : Text) :
    Settled answer source scope (Entries.get? (advance answer source target scope) scope) := by
  intro value hvalue
  rw [get_advance, if_pos rfl] at hvalue ⊢
  cases hreplaced : replacement? answer source scope (Entries.get? target scope) with
  | none =>
      rw [hreplaced, Option.none_or] at hvalue
      rw [hreplaced] at hvalue
      exact absurd hvalue (by simp)
  | some first =>
      obtain ⟨translation, hanswer, rfl⟩ := replacement_eq hreplaced
      obtain ⟨other, hother, rfl⟩ := replacement_eq hvalue
      rw [hanswer] at hother
      rw [Except.ok.inj hother]
      rfl

/-- The dictionary after one more scope. -/
theorem advance_all_append (target : Dictionary) (scopes : List Text) (last : Text) :
    advanceAll answer source target (scopes ++ [last]) =
      advance answer source (advanceAll answer source target scopes) last := by
  simp [advanceAll]

/-- Every scope that was gone through is settled in the end. -/
theorem settled_advance_all {scopes : List Text} {scope : Text} (h : scope ∈ scopes)
    (target : Dictionary) :
    Settled answer source scope (Entries.get? (advanceAll answer source target scopes) scope) := by
  induction scopes using List.reverseRecOn with
  | nil => exact absurd h (by simp)
  | append_singleton scopes last ih =>
      rw [advance_all_append]
      by_cases hlast : scope = last
      · rw [hlast]
        exact settled_advance _ last
      · have hmem : scope ∈ scopes := by
          rcases List.mem_append.mp h with hmem | hmem
          · exact hmem
          · exact absurd (List.mem_singleton.mp hmem) hlast
        rw [get_advance, if_neg hlast]
        exact ih hmem

/-- A settled scope stays as it is. -/
theorem advance_settled {target : Dictionary} {scope : Text}
    (h : Settled answer source scope (Entries.get? target scope)) :
    advance answer source target scope = target := by
  unfold advance
  split
  · next value hvalue => exact Entries.put_same (h value hvalue)
  · rfl

/-- Going through settled scopes changes nothing but what is held under one name, and that as it was
changed before. -/
theorem advance_all_put {start final : Dictionary} {name : Text} {held : Json}
    (hheld : Entries.get? start name = some held) {scopes : List Text}
    (hsettled : ∀ scope ∈ scopes, Settled answer source scope (Entries.get? final scope)) :
    ∃ value, Entries.get? (advanceAll answer source start scopes) name = some value ∧
      advanceAll answer source (Entries.put final name held) scopes =
        Entries.put final name value := by
  induction scopes using List.reverseRecOn with
  | nil => exact ⟨held, hheld, rfl⟩
  | append_singleton scopes last ih =>
      obtain ⟨value, hvalue, hsame⟩ :=
        ih fun scope hmem ↦ hsettled scope (List.mem_append_left _ hmem)
      rw [advance_all_append, advance_all_append, hsame, get_advance]
      by_cases hlast : name = last
      · subst hlast
        have hput : Entries.get? (Entries.put final name value) name = some value := by
          rw [Entries.get_put, if_pos rfl]
        rw [if_pos rfl, hvalue, advance, hput]
        cases hreplaced : replacement? answer source name (some value) with
        | none => exact ⟨value, rfl, rfl⟩
        | some other => exact ⟨other, rfl, Entries.put_put final name value other⟩
      · have hother : Entries.get? (Entries.put final name value) last =
            Entries.get? final last := by
          rw [Entries.get_put, if_neg (Ne.symm hlast)]
        have hlastSettled := hsettled last (List.mem_append_right _ (List.mem_singleton.mpr rfl))
        rw [← hother] at hlastSettled
        rw [if_neg hlast, advance_settled hlastSettled]
        exact ⟨value, hvalue, rfl⟩

/-- Going through the scopes again, with one value as it was in the beginning, changes nothing. -/
theorem advance_all_again {start : Dictionary} {name : Text} {held : Json}
    (hheld : Entries.get? start name = some held) (scopes : List Text) :
    advanceAll answer source (Entries.put (advanceAll answer source start scopes) name held) scopes =
      advanceAll answer source start scopes := by
  have hsettled : ∀ scope ∈ scopes, Settled answer source scope
      (Entries.get? (advanceAll answer source start scopes) scope) :=
    fun scope hmem ↦ settled_advance_all hmem start
  obtain ⟨value, hvalue, hsame⟩ := advance_all_put hheld hsettled
  rw [hsame, Entries.put_same hvalue]

/-- A refresh that begins with what a part of it left, and with the header it began with, ends as the
whole of it. -/
theorem advance_all_resumed {start : Dictionary} {name : Text} {held : Json}
    (hheld : Entries.get? start name = some held) (done others : List Text) :
    advanceAll answer source (Entries.put (advanceAll answer source start done) name held)
        (done ++ others) =
      advanceAll answer source start (done ++ others) := by
  have hsplit (target : Dictionary) : advanceAll answer source target (done ++ others) =
      advanceAll answer source (advanceAll answer source target done) others :=
    List.foldl_append
  rw [hsplit, hsplit, advance_all_again hheld]

end LocalizedSite.Dictionary

/-!
## What a refresh saves

With a translator that answers each scope always alike, a refresh of scopes that are objects runs to
its end, and every dictionary it saves is what some of the first scopes leave (`refresh_spec`).
-/

namespace LocalizedSite.Dictionary

variable {σ : Type} {translate : Translator σ} {locale : Locale} {source : Dictionary}
  {answer : Text → Except TranslationFault (Entries Json)}

/-- The translator answers each scope of the source always alike, whatever its state is. -/
def Answers (translate : Translator σ) (locale : Locale) (source : Dictionary)
    (answer : Text → Except TranslationFault (Entries Json)) : Prop :=
  ∀ state scope entries, source.scope? scope = some entries →
    (translate state scope entries locale).1 = answer scope

/-- Every value of a dictionary is an object. -/
def HoldsScopes (dictionary : Dictionary) : Prop :=
  ∀ name value, Entries.get? dictionary name = some value → value.members?.isSome = true

/-- An object can be compared with the source. -/
theorem HoldsScopes.comparable {target : Dictionary} (h : HoldsScopes target)
    (entries : Entries Json) (scope : Text) :
    isComplete? entries (Entries.get? target scope) ≠ none := by
  cases hget : Entries.get? target scope with
  | none => simp [isComplete?]
  | some value =>
      have hobject := h scope value hget
      cases value with
      | object members =>
          unfold isComplete?
          simp only [size?, Option.map_some]
          split
          · simp
          · simp
      | _ => exact absurd hobject (by simp [Json.members?])

/-- Putting an object leaves objects. -/
theorem HoldsScopes.put {target : Dictionary} {name : Text}
    (h : ∀ other value, Entries.get? target other = some value → other ≠ name →
      value.members?.isSome = true) (members : Entries Json) :
    HoldsScopes (Entries.put target name (.object members)) := by
  intro other value hget
  rw [Entries.get_put] at hget
  split at hget
  · rw [← Option.some.inj hget]
    rfl
  · next hne => exact h other value hget hne

/-- One more scope leaves objects. -/
theorem HoldsScopes.advance {target : Dictionary} (h : HoldsScopes target) (scope : Text) :
    HoldsScopes (advance answer source target scope) := by
  unfold Dictionary.advance
  split
  · next value hvalue =>
      obtain ⟨translation, -, rfl⟩ := replacement_eq hvalue
      exact .put (fun name value hget _ ↦ h name value hget) translation
  · exact h

/-- Some more scopes leave objects. -/
theorem HoldsScopes.advance_all {target : Dictionary} (h : HoldsScopes target)
    (scopes : List Text) : HoldsScopes (advanceAll answer source target scopes) := by
  induction scopes generalizing target with
  | nil => exact h
  | cons scope scopes ih => exact ih (h.advance scope)

/-- The header is an object. -/
theorem HoldsScopes.with_header {target : Dictionary}
    (h : ∀ name value, Entries.get? target name = some value → name ≠ headerName →
      value.members?.isSome = true) (locale : Locale) : HoldsScopes (withHeader locale target) :=
  .put h _

/-- What one scope does to the state of a refresh: the target goes on as it should and is saved, or
nothing but the report of complete and missing scopes changes. -/
theorem refresh_scope_spec (hanswers : Answers translate locale source answer)
    {state : RefreshState σ} (hholds : HoldsScopes state.target) (scope : Text) :
    ∃ next, refreshScope translate locale (some source) state scope = .ok next ∧
      next.target = advance answer source state.target scope ∧
      (next.saved = next.target :: state.saved ∨
        next.target = state.target ∧ next.saved = state.saved ∧
          next.report.translated = state.report.translated ∧
          next.report.failed = state.report.failed) := by
  unfold refreshScope scopeOutcome advance replacement?
  simp only [Option.getD_some]
  cases hscope : source.scope? scope with
  | none => exact ⟨_, rfl, rfl, .inr ⟨rfl, rfl, rfl, rfl⟩⟩
  | some entries =>
      simp only
      cases hcomplete : isComplete? entries (Entries.get? state.target scope) with
      | none => exact absurd hcomplete (hholds.comparable entries scope)
      | some complete =>
          cases complete with
          | true => exact ⟨_, rfl, rfl, .inr ⟨rfl, rfl, rfl, rfl⟩⟩
          | false =>
              simp only
              have hanswer := hanswers state.translator scope entries hscope
              cases htranslate : translate state.translator scope entries locale with
              | mk result translator =>
                  rw [htranslate] at hanswer
                  simp only at hanswer
                  rw [← hanswer]
                  cases result with
                  | error fault => exact ⟨_, rfl, rfl, .inl rfl⟩
                  | ok translation =>
                      simp only
                      cases hkeys : checkKeys scope (Entries.names entries)
                          (Entries.names translation) with
                      | error fault => exact ⟨_, rfl, rfl, .inl rfl⟩
                      | ok checked => exact ⟨_, rfl, rfl, .inl rfl⟩

/-- The state of a refresh after some scopes. -/
structure Progress (answer : Text → Except TranslationFault (Entries Json)) (source start : Dictionary)
    (done : List Text) (state : RefreshState σ) : Prop where
  holds : HoldsScopes state.target
  target_eq : state.target = advanceAll answer source start done
  saved : ∀ dictionary ∈ state.saved, ∃ first others, done = first ++ others ∧
    dictionary = advanceAll answer source start first
  last : state.saved.head? = some state.target ∨
    state.saved = [] ∧ state.report.translated = [] ∧ state.report.failed = []

/-- One more scope. -/
theorem Progress.step {start : Dictionary} {done : List Text} {state : RefreshState σ}
    (hanswers : Answers translate locale source answer)
    (h : Progress answer source start done state) (scope : Text) :
    ∃ next, refreshScope translate locale (some source) state scope = .ok next ∧
      Progress answer source start (done ++ [scope]) next := by
  obtain ⟨next, hnext, htarget, hcases⟩ := refresh_scope_spec hanswers h.holds scope
  have hall : next.target = advanceAll answer source start (done ++ [scope]) := by
    rw [advance_all_append, ← h.target_eq, htarget]
  have hholds : HoldsScopes next.target := by
    rw [htarget]
    exact h.holds.advance scope
  have hearlier : ∀ dictionary ∈ state.saved, ∃ first others,
      done ++ [scope] = first ++ others ∧ dictionary = advanceAll answer source start first := by
    intro dictionary hmem
    obtain ⟨first, others, hdone, heq⟩ := h.saved dictionary hmem
    exact ⟨first, others ++ [scope], by rw [hdone, List.append_assoc], heq⟩
  refine ⟨next, hnext, ?_⟩
  rcases hcases with hsaved | ⟨hsame, hsaved, htranslated, hfailed⟩
  · refine ⟨hholds, hall, fun dictionary hmem ↦ ?_, .inl (by rw [hsaved]; rfl)⟩
    rw [hsaved] at hmem
    rcases List.mem_cons.mp hmem with rfl | hmem
    · exact ⟨done ++ [scope], [], (List.append_nil _).symm, hall⟩
    · exact hearlier dictionary hmem
  · refine ⟨hholds, hall, fun dictionary hmem ↦ ?_, ?_⟩
    · rw [hsaved] at hmem
      exact hearlier dictionary hmem
    · rw [hsaved, hsame, htranslated, hfailed]
      exact h.last

/-- Some more scopes. -/
theorem Progress.run {start : Dictionary} {done : List Text} {state : RefreshState σ}
    (hanswers : Answers translate locale source answer)
    (h : Progress answer source start done state) (scopes : List Text) :
    ∃ final, refreshScopes translate locale (some source) state scopes = .ok final ∧
      Progress answer source start (done ++ scopes) final := by
  induction scopes generalizing done state with
  | nil => exact ⟨state, rfl, by rw [List.append_nil]; exact h⟩
  | cons scope scopes ih =>
      obtain ⟨next, hnext, hprogress⟩ := h.step hanswers scope
      obtain ⟨final, hfinal, hend⟩ := ih hprogress
      refine ⟨final, ?_, ?_⟩
      · rw [refreshScopes, hnext]
        exact hfinal
      · rw [List.append_assoc] at hend
        exact hend

/-- What a refresh comes to once its scopes were gone through: the target is saved, unless it was saved
last already. -/
theorem refresh_ends {translator : σ} {source : Option Dictionary} {sections : List Text}
    {target : Dictionary} {final : RefreshState σ}
    (hfinal : refreshScopes translate locale source
      ⟨withHeader locale target, [], ⟨[], [], [], []⟩, translator⟩
      (requestedScopes sections (source.getD (withHeader locale target))) = .ok final)
    (hlast : final.saved.head? = some final.target ∨
      final.saved = [] ∧ final.report.translated = [] ∧ final.report.failed = []) :
    ∃ saved, refresh translate translator locale source sections target =
        .ok { final with saved } ∧
      saved.head? = some final.target ∧
      ∀ dictionary ∈ saved, dictionary = final.target ∨ dictionary ∈ final.saved := by
  unfold refresh
  simp only
  rw [hfinal]
  by_cases hnone : (final.report.translated.isEmpty && final.report.failed.isEmpty) = true
  · refine ⟨final.target :: final.saved, ?_, rfl, by simp⟩
    show Except.ok (if _ then _ else _) = _
    rw [if_pos hnone]
  · refine ⟨final.saved, ?_, hlast.resolve_right fun hunsaved ↦ hnone ?_, by simp +contextual⟩
    · show Except.ok (if _ then _ else _) = _
      rw [if_neg hnone]
    · rw [hunsaved.2.1, hunsaved.2.2]
      rfl

/-- A refresh that comes to its end has gone through all its scopes, and only saves the target then. -/
theorem scopes_of_refresh {translator : σ} {source : Option Dictionary} {sections : List Text}
    {target : Dictionary} {state : RefreshState σ}
    (h : refresh translate translator locale source sections target = .ok state) :
    ∃ final, refreshScopes translate locale source
        ⟨withHeader locale target, [], ⟨[], [], [], []⟩, translator⟩
        (requestedScopes sections (source.getD (withHeader locale target))) = .ok final ∧
      state.translator = final.translator := by
  unfold refresh at h
  simp only at h
  cases hfinal : refreshScopes translate locale source
      ⟨withHeader locale target, [], ⟨[], [], [], []⟩, translator⟩
      (requestedScopes sections (source.getD (withHeader locale target))) with
  | error stopped =>
      rw [hfinal] at h
      exact absurd h (by simp [bind, Except.bind])
  | ok final =>
      rw [hfinal] at h
      obtain rfl := Except.ok.inj h
      refine ⟨final, rfl, ?_⟩
      split
      · rfl
      · rfl

/-- What a refresh comes to: a target, and the dictionaries that were saved on the way to it. -/
theorem refresh_spec (hanswers : Answers translate locale source answer) (translator : σ)
    (sections : List Text) {target : Dictionary} (hholds : HoldsScopes (withHeader locale target)) :
    ∃ state, refresh translate translator locale (some source) sections target = .ok state ∧
      state.target = advanceAll answer source (withHeader locale target)
        (requestedScopes sections source) ∧
      state.saved.head? = some state.target ∧
      ∀ dictionary ∈ state.saved, ∃ done others, requestedScopes sections source = done ++ others ∧
        dictionary = advanceAll answer source (withHeader locale target) done := by
  have hstart : Progress answer source (withHeader locale target) []
      (⟨withHeader locale target, [], ⟨[], [], [], []⟩, translator⟩ : RefreshState σ) :=
    ⟨hholds, rfl, by simp, .inr ⟨rfl, rfl, rfl⟩⟩
  obtain ⟨final, hfinal, hend⟩ := hstart.run hanswers (requestedScopes sections source)
  rw [List.nil_append] at hend
  obtain ⟨saved, hrefresh, hhead, hsaved⟩ := refresh_ends hfinal hend.last
  refine ⟨{ final with saved }, hrefresh, hend.target_eq, hhead, fun dictionary hmem ↦ ?_⟩
  rcases hsaved dictionary hmem with rfl | hmem
  · exact ⟨_, [], (List.append_nil _).symm, hend.target_eq⟩
  · exact hend.saved dictionary hmem

/-- The header that a refresh begins with. -/
theorem get_with_header (locale : Locale) (target : Dictionary) :
    Entries.get? (withHeader locale target) headerName = some (ofTexts locale.header) := by
  rw [withHeader, Entries.get_put, if_pos rfl]

/-- Putting a well-formed value into a well-formed object. -/
theorem put_well_formed {members : Entries Json} (h : Json.WellFormed (.object members))
    (name : Text) {value : Json} (hvalue : value.WellFormed) :
    Json.WellFormed (.object (Entries.put members name value)) := by
  cases h with
  | object hnames hmembers =>
      refine .object (Entries.put_nodup hnames name value) fun member hmem ↦ ?_
      rcases Entries.mem_of_put hmem with hold | rfl
      · exact hmembers member hold
      · exact hvalue

/-- The header of a locale is well-formed. -/
theorem header_well_formed (locale : Locale) : (ofTexts locale.header).WellFormed := by
  refine .object ?_ fun member hmem ↦ ?_
  · show ["locale".toList, "locale_path".toList, "og_locale".toList, "html_lang".toList].Nodup
    decide
  · obtain ⟨⟨key, text⟩, -, rfl⟩ := List.mem_map.mp hmem
    exact .string text

/-- Some scopes leave a well-formed dictionary, if the answers are well-formed. -/
theorem advance_all_well_formed
    (hwell : ∀ scope entries, answer scope = .ok entries → Json.WellFormed (.object entries))
    {target : Dictionary} (h : Json.WellFormed (.object target)) (scopes : List Text) :
    Json.WellFormed (.object (advanceAll answer source target scopes)) := by
  induction scopes generalizing target with
  | nil => exact h
  | cons scope scopes ih =>
      refine ih ?_
      unfold advance
      split
      · next value hvalue =>
          obtain ⟨translation, hanswer, rfl⟩ := replacement_eq hvalue
          exact put_well_formed h scope (hwell scope translation hanswer)
      · exact h

end LocalizedSite.Dictionary
