import LocalizedSite.Proofs.Dictionary.Account
import LocalizedSite.Proofs.Dictionary.Apart
import LocalizedSite.Proofs.Dictionary.Session

/-!
# What the store keeps is what the files hold

A caller loads, saves, copies and refreshes dictionaries in any order (`Op`, `Session.step`). If the locales
have files of their own, and no dictionary is saved for a locale while the store keeps it for another one,
then at any time each dictionary that the store keeps is what its file holds (`IsCurrent`, kept by each
operation in `step_goes`). A copy that a snapshot gave is changed by none of this, unless it is saved itself
(`Spares`).
-/

namespace LocalizedSite

namespace Dictionary

variable {σ : Type} {translate : Translator σ} {locale : Locale}

/-- A refresh has a dictionary, and the last that it saved is this one unless it saved nothing. -/
structure Saving (state : RefreshState σ) : Prop where
  well : Json.WellFormed (.object state.target)
  last : state.saved.head? = some state.target ∨
    state.saved = [] ∧ state.report.translated = [] ∧ state.report.failed = []

/-- One more scope. -/
theorem Saving.step {state next : RefreshState σ} (h : Saving state)
    (hmappings : AnswersMappings translate locale) {source : Option Dictionary} {scope : Text}
    (hstep : refreshScope translate locale source state scope = .ok next) : Saving next := by
  rcases refresh_scope_cases source state scope with ⟨-, hafter⟩ | ⟨-, hafter⟩ | ⟨-, hafter⟩ |
    ⟨entries, answer, translator, -, -, hanswer, ⟨-, hafter⟩ | ⟨translation, haccepted, hafter⟩⟩
  · exact absurd (hafter.symm.trans hstep) (by simp)
  · obtain rfl := Except.ok.inj (hafter.symm.trans hstep)
    exact ⟨h.well, h.last⟩
  · obtain rfl := Except.ok.inj (hafter.symm.trans hstep)
    exact ⟨h.well, h.last⟩
  · obtain rfl := Except.ok.inj (hafter.symm.trans hstep)
    exact ⟨h.well, .inl rfl⟩
  · obtain rfl := Except.ok.inj (hafter.symm.trans hstep)
    obtain ⟨rfl, -⟩ := Call.answer_of_accepted haccepted
    have htranslation : Json.WellFormed (.object translation) :=
      hmappings state.translator scope entries translation (congrArg Prod.fst hanswer)
    exact ⟨put_well_formed h.well scope htranslation, .inl rfl⟩

/-- Some more scopes. -/
theorem Saving.run {state final : RefreshState σ} (h : Saving state)
    (hmappings : AnswersMappings translate locale) {source : Option Dictionary} {scopes : List Text}
    (hrun : refreshScopes translate locale source state scopes = .ok final) : Saving final := by
  induction scopes generalizing state with
  | nil =>
      obtain rfl := Except.ok.inj hrun
      exact h
  | cons scope scopes ih =>
      rw [refreshScopes] at hrun
      split at hrun
      · exact absurd hrun (by simp)
      · next next hstep => exact ih (h.step hmappings hstep) hrun

/-- The last dictionary that a refresh saves is the one that it leaves. -/
theorem refresh_saves {translator : σ} {source : Option Dictionary} {sections : List Text}
    {target : Dictionary} {state : RefreshState σ} (hmappings : AnswersMappings translate locale)
    (hwell : Json.WellFormed (.object target))
    (h : Dictionary.refresh translate translator locale source sections target = .ok state) :
    Json.WellFormed (.object state.target) ∧ ∃ earlier, state.saved = state.target :: earlier := by
  obtain ⟨final, hscopes, -⟩ := scopes_of_refresh h
  have hstart : Saving (⟨withHeader locale target, [], ⟨[], [], [], []⟩, translator⟩ : RefreshState σ) :=
    ⟨put_well_formed hwell _ (header_well_formed locale), .inr ⟨rfl, rfl, rfl⟩⟩
  have hfinal := hstart.run hmappings hscopes
  obtain ⟨saved, hends, hhead, -⟩ := refresh_ends hscopes hfinal.last
  obtain rfl := Except.ok.inj (hends.symm.trans h)
  exact ⟨hfinal.well, List.head?_eq_some_iff.mp hhead⟩

end Dictionary

namespace Session

/-- What a caller gives to be saved: a dictionary of its own, or one that it has from the store. -/
inductive Given where
  | made (dictionary : Dictionary)
  | held (number : Nat)

/-- What a caller asks of a store. -/
inductive Op : Type 1 where
  | load (code : Text)
  | source
  | get (code scope key : Text)
  | hasFile (code : Text)
  | save (code : Text) (given : Given)
  | snapshot (codes : List Text)
  | refresh {σ : Type} (translate : Dictionary.Translator σ) (translator : σ) (locale : Locale)
      (sections : List Text)

/-- What a store answers. -/
inductive Answer where
  | dictionary (number : Nat)
  | text (found : Option Text)
  | hasFile (found : Bool)
  | path (path : FilePath)
  | copies (found : Entries Nat)
  | report (report : Dictionary.RefreshReport)
deriving DecidableEq, Repr

/-- The number of what is given. -/
def give (session : Session) : Given → Nat × Session
  | .made dictionary => (session.objects.length, session.make dictionary)
  | .held number => (number, session)

/-- One operation: its answer, and what it leaves. -/
def step (base : Store) (session : Session) : Op → Except StoreFault Answer × Session
  | .load code =>
    match session.load base code with
    | .ok (number, next) => (.ok (.dictionary number), next)
    | .error fault => (.error fault, session)
  | .source =>
    match session.load base base.sourceCode with
    | .ok (number, next) => (.ok (.dictionary number), next)
    | .error fault => (.error fault, session)
  | .get code scope key =>
    match session.load base code with
    | .ok (number, next) => (.ok (.text ((next.object number).text? scope key)), next)
    | .error fault => (.error fault, session)
  | .hasFile code => (.ok (.hasFile (base.hasFile session.tree code)), session)
  | .save code given =>
    let (number, given) := session.give given
    match given.save base code number with
    | .ok next => (.ok (.path (base.path code)), next)
    | .error error => (.error (.file error), given)
  | .snapshot codes =>
    let (found, next) := session.snapshot base codes
    (found.map .copies, next)
  | .refresh translate translator locale sections =>
    let refreshed := session.refresh base translate translator locale sections
    (refreshed.result.map .report, refreshed.session)

/-- Whether an operation returns, or fails with the wording of a fault of a dictionary file. -/
def returns : Except StoreFault Answer → Bool
  | .ok _ => true
  | .error fault => fault.message?.isSome

/-- What may be given for a locale: a JSON object of the caller's own, or a dictionary that the store keeps for
no other locale. -/
def Given.Allowed (session : Session) (code : Text) : Given → Prop
  | .made dictionary => Json.WellFormed (.object dictionary)
  | .held number => session.IsFree code number

/-- What may be asked of a store for some locales. -/
def Op.Allowed (base : Store) (codes : List Text) (session : Session) : Op → Prop
  | .load code | .get code _ _ | .hasFile code => code ∈ codes
  | .source => base.sourceCode ∈ codes
  | .save code given => code ∈ codes ∧ given.Allowed session code
  | .snapshot asked => ∀ code ∈ asked, code ∈ codes
  | .refresh translate _ locale _ =>
    base.sourceCode ∈ codes ∧ locale.code ∈ codes ∧ Dictionary.AnswersMappings translate locale

/-- The dictionary of the store's that an operation saves. -/
def Op.held? : Op → Option Nat
  | .save _ (.held number) => some number
  | _ => none

/-- Some operations, one after another, each of which may be asked and returns. -/
inductive Runs (base : Store) (codes : List Text) : Session → List Op → Session → Prop
  | none (session : Session) : Runs base codes session [] session
  | more {session final : Session} {op : Op} {ops : List Op} (hallowed : op.Allowed base codes session)
      (hreturns : returns (session.step base op).1 = true)
      (hrest : Runs base codes (session.step base op).2 ops final) : Runs base codes session (op :: ops) final

variable {σ : Type} {base : Store} {codes : List Text} {session next final : Session} {code : Text}
  {number : Nat} {dictionary : Dictionary} {given : Option Nat}

/-- Each dictionary that the store keeps is what its file holds. -/
structure IsCurrent (base : Store) (codes : List Text) (session : Session) : Prop where
  tidy : session.IsTidy
  files : base.HaveOwnFiles session.tree codes
  known : ∀ code number, Entries.get? session.kept code = some number → code ∈ codes
  current : ∀ code number, Entries.get? session.kept code = some number →
    base.read session.tree code = .ok (session.object number)
  well : ∀ dictionary ∈ session.objects, Json.WellFormed (.object dictionary)

/-- A dictionary that was made, and that the store does not keep. -/
def IsLoose (session : Session) (number : Nat) : Prop :=
  number < session.objects.length ∧ ∀ code, Entries.get? session.kept code ≠ some number

/-- If a dictionary is loose, it is still so and has not changed. -/
def Spares (before after : Session) (number : Nat) : Prop :=
  before.IsLoose number → after.IsLoose number ∧ after.object number = before.object number

/-- What is spared at first and then is spared. -/
theorem Spares.trans (h : Spares session next number) (hnext : Spares next final number) :
    Spares session final number := by
  intro hloose
  obtain ⟨hloose, hsame⟩ := h hloose
  obtain ⟨hloose, hnext⟩ := hnext hloose
  exact ⟨hloose, hnext.trans hsame⟩

/-- Making dictionaries spares those that are there. -/
theorem Extends.spares (h : Extends session next) (number : Nat) : Spares session next number := by
  intro ⟨hbound, hkept⟩
  refine ⟨⟨Nat.lt_of_lt_of_le hbound h.length, fun code hlater ↦ ?_⟩, h.objects number hbound⟩
  rcases h.kept code number hlater with hbefore | hnew
  · exact hkept code hbefore
  · exact Nat.not_le.mpr hbound hnew

/-- The store goes on: what it keeps is what the files hold, and no loose dictionary has changed, apart from the
one that was given. -/
structure Goes (base : Store) (codes : List Text) (before after : Session) (given : Option Nat) : Prop where
  current : IsCurrent base codes after
  spares : ∀ number, given ≠ some number → Spares before after number

namespace Goes

/-- The store goes on if nothing happens. -/
theorem refl (h : IsCurrent base codes session) : Goes base codes session session none :=
  ⟨h, fun number _ ↦ (Extends.refl session).spares number⟩

/-- The store goes on and on. -/
theorem trans (h : Goes base codes session next none) (hnext : Goes base codes next final given) :
    Goes base codes session final given :=
  ⟨hnext.current, fun number hnumber ↦ (h.spares number (by simp)).trans (hnext.spares number hnumber)⟩

/-- What is not loose need not be spared. -/
theorem spare_all (h : Goes base codes session next (some number)) (hloose : ¬ session.IsLoose number) :
    Goes base codes session next none := by
  refine ⟨h.current, fun other _ hother ↦ h.spares other ?_ hother⟩
  rintro ⟨⟩
  exact hloose hother

end Goes

namespace IsCurrent

/-- At the beginning the store keeps nothing. -/
theorem start {tree : FileTree} (h : base.HaveOwnFiles tree codes) : IsCurrent base codes (start tree) where
  tidy := .of_empty tree []
  files := h
  known _ _ hkept := absurd hkept (by simp [Session.start])
  current _ _ hkept := absurd hkept (by simp [Session.start])
  well _ hmem := absurd hmem List.not_mem_nil

/-- Forgetting everything leaves nothing that could differ. -/
theorem forget (h : IsCurrent base codes session) :
    Goes base codes session { session with kept := [] } none where
  current := ⟨.of_empty _ _, h.files, fun _ _ hkept ↦ absurd hkept (by simp),
    fun _ _ hkept ↦ absurd hkept (by simp), h.well⟩
  spares _ _ hloose := ⟨⟨hloose.1, by simp⟩, rfl⟩

/-- A dictionary that was made is well-formed. -/
theorem object_well (h : IsCurrent base codes session) (hbound : number < session.objects.length) :
    Json.WellFormed (.object (session.object number)) := by
  refine h.well _ ?_
  unfold object
  rw [List.getD_eq_getElem?_getD, List.getElem?_eq_getElem hbound]
  exact List.getElem_mem hbound

/-- A dictionary is made. -/
theorem make (h : IsCurrent base codes session) (hwell : Json.WellFormed (.object dictionary)) :
    Goes base codes session (session.make dictionary) none where
  current := by
    refine ⟨h.tidy.make dictionary, h.files, h.known, fun code number hkept ↦ ?_, fun found hmem ↦ ?_⟩
    · rw [object_make (h.tidy.bounded code number hkept)]
      exact h.current code number hkept
    · rcases List.mem_append.mp hmem with hmem | hmem
      · exact h.well found hmem
      · rw [List.mem_singleton.mp hmem]
        exact hwell
  spares number _ := (Extends.make session dictionary).spares number

/-- A dictionary is loaded. -/
theorem load (h : IsCurrent base codes session) (hcode : code ∈ codes)
    (hload : session.load base code = .ok (number, next)) : Goes base codes session next none := by
  obtain ⟨htidy, hextends, -⟩ := load_spec h.tidy hload
  refine ⟨?_, fun number _ ↦ hextends.spares number⟩
  rcases load_cases base session code with ⟨_, -, hsame⟩ | ⟨-, fault, -, hsame⟩ |
    ⟨-, dictionary, hread, hsame⟩
  · obtain ⟨-, rfl⟩ := Prod.mk.inj (Except.ok.inj (hsame.symm.trans hload))
    exact h
  · exact absurd (hsame.symm.trans hload) (by simp)
  · have hmade := (h.make (Store.read_well_formed hread)).current
    obtain ⟨-, rfl⟩ := Prod.mk.inj (Except.ok.inj (hsame.symm.trans hload))
    refine ⟨htidy, h.files, fun other found hkept ↦ ?_, fun other found hkept ↦ ?_, hmade.well⟩
    · rw [keep, Entries.get_put] at hkept
      split at hkept
      · next hother => rwa [hother]
      · exact hmade.known other found hkept
    · rw [keep, Entries.get_put] at hkept
      split at hkept
      · next hother =>
          rw [hother, ← Option.some.inj hkept]
          exact hread.trans (congrArg Except.ok (object_make_last session dictionary).symm)
      · exact hmade.current other found hkept

/-- A dictionary is changed, written and kept. -/
theorem write (h : IsCurrent base codes session) (hcode : code ∈ codes)
    (hfree : session.IsFree code number) (hwell : Json.WellFormed (.object dictionary)) {after : FileTree}
    (hwrite : base.writeFile session.tree code dictionary = .ok after) :
    Goes base codes session
      { (session.change number dictionary).keep code number with tree := after } (some number) := by
  have hlater : (session.change number dictionary).IsFree code number :=
    ⟨by simpa [change] using hfree.1, hfree.2⟩
  have htidy := (h.tidy.change number dictionary).keep hlater
  have hobject := object_change hfree.1 dictionary
  have hkept {other : Text} {found : Nat}
      (h : Entries.get? (Entries.put session.kept code number) other = some found) :
      other = code ∧ found = number ∨ other ≠ code ∧ Entries.get? session.kept other = some found := by
    rw [Entries.get_put] at h
    split at h
    · next hsame => exact .inl ⟨hsame, (Option.some.inj h).symm⟩
    · next hne => exact .inr ⟨hne, h⟩
  constructor
  case current =>
    refine ⟨⟨htidy.names, htidy.bounded, htidy.own⟩, h.files.write hcode hwrite,
      fun other found hfound ↦ ?_, fun other found hfound ↦ ?_, fun found hmem ↦ ?_⟩
    · rcases hkept hfound with ⟨rfl, -⟩ | ⟨-, hbefore⟩
      · exact hcode
      · exact h.known other found hbefore
    · rcases hkept hfound with ⟨rfl, rfl⟩ | ⟨hne, hbefore⟩
      · exact (Store.read_of_write_file hwell hwrite).trans
          (congrArg Except.ok ((hobject found).trans (if_pos rfl)).symm)
      · -- the store keeps another dictionary for another locale
        have hother : found ≠ number := by
          rintro rfl
          exact hne (hfree.2 other hbefore)
        calc base.read after other
            = base.read session.tree other :=
              h.files.read_elsewhere hcode (h.known other found hbefore) hne hwrite
          _ = .ok (session.object found) := h.current other found hbefore
          _ = .ok ((session.change number dictionary).object found) :=
              congrArg Except.ok ((hobject found).trans (if_neg hother)).symm
    · rcases List.mem_or_eq_of_mem_set hmem with hmem | rfl
      · exact h.well found hmem
      · exact hwell
  case spares =>
    intro other hother hloose
    have hne : other ≠ number := fun hsame ↦ hother (congrArg some hsame.symm)
    refine ⟨⟨by simpa [change, keep] using hloose.1, fun found hfound ↦ ?_⟩,
      (hobject other).trans (if_neg hne)⟩
    rcases hkept hfound with ⟨-, hsame⟩ | ⟨-, hbefore⟩
    · exact hne hsame
    · exact hloose.2 found hbefore

/-- A dictionary is saved as it is. -/
theorem save (h : IsCurrent base codes session) (hcode : code ∈ codes) (hfree : session.IsFree code number)
    (hsave : session.save base code number = .ok next) : Goes base codes session next (some number) := by
  have hsame : session.change number (session.object number) = session := by
    unfold change object
    rw [List.getD_eq_getElem?_getD, List.getElem?_eq_getElem hfree.1, Option.getD_some,
      List.set_getElem_self]
  unfold Session.save at hsave
  cases hwrite : base.writeFile session.tree code (session.object number) with
  | error error =>
      rw [hwrite] at hsave
      exact absurd hsave (by simp [Except.map])
  | ok after =>
      rw [hwrite] at hsave
      have hgoes := h.write hcode hfree (h.object_well hfree.1) hwrite
      rw [hsame] at hgoes
      rw [← Except.ok.inj hsave]
      exact hgoes

/-- What is given is saved. -/
theorem save_given (h : IsCurrent base codes session) (hcode : code ∈ codes) {given : Given}
    (hallowed : given.Allowed session code)
    (hsave : (session.give given).2.save base code (session.give given).1 = .ok next) :
    Goes base codes session next (Op.save code given).held? := by
  cases given with
  | held number => exact h.save hcode hallowed hsave
  | made dictionary =>
      have hmade := h.make hallowed
      have hsaved := hmade.current.save hcode (h.tidy.free_make dictionary code) hsave
      refine ⟨hsaved.current, fun number _ hloose ↦ ?_⟩
      have hne : some session.objects.length ≠ some number := fun hsame ↦
        absurd hloose.1 (by rw [Option.some.inj hsame]; exact Nat.lt_irrefl _)
      exact ((hmade.spares number (by simp)).trans (hsaved.spares number hne)) hloose

/-- The dictionaries of some locales are copied: each copy is what the file of its locale holds, and the store
does not keep it. -/
theorem snapshot_from (h : IsCurrent base codes session) {asked : List Text}
    (hasked : ∀ code ∈ asked, code ∈ codes) {found : Entries Nat}
    (hfound : ∀ code number, Entries.get? found code = some number → session.IsLoose number ∧
      base.read session.tree code = .ok (session.object number)) :
    let after := (snapshotFrom base session found asked).2
    Goes base codes session after none ∧ after.tree = session.tree ∧
      ∀ copies, (snapshotFrom base session found asked).1 = .ok copies →
        ∀ code number, Entries.get? copies code = some number → after.IsLoose number ∧
          base.read session.tree code = .ok (after.object number) := by
  induction asked generalizing session found with
  | nil =>
      refine ⟨.refl h, rfl, fun copies hcopies ↦ ?_⟩
      obtain rfl := Except.ok.inj hcopies
      exact hfound
  | cons code asked ih =>
      have hothers := fun other hmem ↦ hasked other (List.mem_cons_of_mem code hmem)
      rw [snapshotFrom]
      split
      · cases hload : session.load base code with
        | error fault =>
            simp only
            split
            · exact ih h hothers hfound
            · exact ⟨.refl h, rfl, fun copies hcopies ↦ absurd hcopies (by simp)⟩
        | ok loaded =>
            obtain ⟨number, next⟩ := loaded
            obtain ⟨-, hextends, hkept⟩ := load_spec h.tidy hload
            have hnext := h.load (hasked code (List.mem_cons_self ..)) hload
            have hbound := hnext.current.tidy.bounded code number hkept
            have hmade := hnext.trans (hnext.current.make (hnext.current.object_well hbound))
            have hlast : ∀ other copy,
                Entries.get? (Entries.put found code next.objects.length) other = some copy →
                  (next.make (next.object number)).IsLoose copy ∧ base.read next.tree other =
                    .ok ((next.make (next.object number)).object copy) := by
              intro other copy hcopy
              rw [Entries.get_put] at hcopy
              split at hcopy
              · next hother =>
                  rw [hother, ← Option.some.inj hcopy, object_make_last]
                  refine ⟨⟨by simp [Session.make], fun other hother ↦ ?_⟩,
                    hnext.current.current code number hkept⟩
                  exact absurd (hnext.current.tidy.bounded other _ hother) (Nat.lt_irrefl _)
              · obtain ⟨hloose, hread⟩ := hfound other copy hcopy
                obtain ⟨hlater, hsame⟩ := hmade.spares copy (by simp) hloose
                rw [hextends.tree, hsame]
                exact ⟨hlater, hread⟩
            obtain ⟨hgoes, htree, hspec⟩ := ih hmade.current hothers hlast
            refine ⟨hmade.trans hgoes, htree.trans hextends.tree, fun copies hcopies other copy hcopy ↦ ?_⟩
            rw [← hextends.tree]
            exact hspec copies hcopies other copy hcopy
      · exact ih h hothers hfound

/-- A snapshot is taken. -/
theorem snapshot (h : IsCurrent base codes session) {asked : List Text}
    (hasked : ∀ code ∈ asked, code ∈ codes) :
    let after := (session.snapshot base asked).2
    Goes base codes session after none ∧ ∀ copies, (session.snapshot base asked).1 = .ok copies →
      ∀ code number, Entries.get? copies code = some number → after.IsLoose number ∧
        base.read session.tree code = .ok (after.object number) := by
  have hnone : ∀ code number, Entries.get? ([] : Entries Nat) code = some number →
      ({ session with kept := [] } : Session).IsLoose number ∧
        base.read session.tree code = .ok (({ session with kept := [] } : Session).object number) :=
    fun _ _ hfound ↦ absurd hfound (by simp)
  obtain ⟨hgoes, -, hcopies⟩ := h.forget.current.snapshot_from hasked hnone
  exact ⟨h.forget.trans hgoes, hcopies⟩

/-- A dictionary is refreshed. -/
theorem refresh (h : IsCurrent base codes session) {translate : Dictionary.Translator σ} {translator : σ}
    {locale : Locale} {sections : List Text} (hsource : base.sourceCode ∈ codes)
    (hcode : locale.code ∈ codes) (hmappings : Dictionary.AnswersMappings translate locale)
    (hreturns : ∀ fault, (session.refresh base translate translator locale sections).result = .error fault →
      fault.message?.isSome = true) :
    Goes base codes session (session.refresh base translate translator locale sections).session none := by
  unfold Session.refresh at hreturns ⊢
  cases hfirst : session.load base base.sourceCode with
  | error fault => exact .refl h
  | ok loaded =>
      obtain ⟨source, first⟩ := loaded
      have hgoes := h.load hsource hfirst
      cases hsecond : first.load base locale.code with
      | error fault => simpa only [hsecond] using hgoes
      | ok loaded =>
          obtain ⟨target, second⟩ := loaded
          have hloaded := hgoes.trans (hgoes.current.load hcode hsecond)
          obtain ⟨-, -, hkept⟩ := load_spec hgoes.current.tidy hsecond
          have hwell := Store.read_well_formed (hloaded.current.current locale.code target hkept)
          simp only [hfirst, hsecond] at hreturns ⊢
          cases hrefresh : Dictionary.refresh translate translator locale
              (if target = source then none else some (second.object source)) sections
              (second.object target) with
          | error state =>
              -- the refresh stopped with a fault that has no wording
              simp only [hrefresh] at hreturns
              cases hwrite : base.writeAll locale.code second.tree state.saved.reverse with
              | error stopped => exact absurd (hreturns _ (by rw [hwrite])) (by simp [StoreFault.message?])
              | ok tree => exact absurd (hreturns _ (by rw [hwrite])) (by simp [StoreFault.message?])
          | ok state =>
              simp only [hrefresh] at hreturns ⊢
              obtain ⟨hfinal, earlier, hsaved⟩ := Dictionary.refresh_saves hmappings hwell hrefresh
              cases hwrite : base.writeAll locale.code second.tree state.saved.reverse with
              | error stopped => exact absurd (hreturns _ (by rw [hwrite])) (by simp [StoreFault.message?])
              | ok tree =>
                  rw [hsaved, List.reverse_cons, Store.write_all_append] at hwrite
                  split at hwrite
                  · next after hlast =>
                      obtain rfl := Except.ok.inj hwrite
                      have hwritten := hloaded.current.write hcode (hloaded.current.tidy.free hkept) hfinal hlast
                      exact hloaded.trans (hwritten.spare_all fun hloose ↦ hloose.2 _ hkept)
                  · exact absurd hwrite (by simp)

end IsCurrent

/-- Each operation that may be asked and returns leaves the store with what the files hold, and spares the
dictionaries that the store does not keep. -/
theorem step_goes (h : IsCurrent base codes session) {op : Op} (hallowed : op.Allowed base codes session)
    (hreturns : returns (session.step base op).1 = true) :
    Goes base codes session (session.step base op).2 op.held? := by
  cases op with
  | load code =>
      simp only [step]
      cases hload : session.load base code with
      | error fault => exact .refl h
      | ok loaded => exact h.load hallowed hload
  | source =>
      simp only [step]
      cases hload : session.load base base.sourceCode with
      | error fault => exact .refl h
      | ok loaded => exact h.load hallowed hload
  | get code scope key =>
      simp only [step]
      cases hload : session.load base code with
      | error fault => exact .refl h
      | ok loaded => exact h.load hallowed hload
  | hasFile code => exact .refl h
  | save code given =>
      simp only [step] at hreturns ⊢
      cases hsave : (session.give given).2.save base code (session.give given).1 with
      | error error =>
          rw [hsave] at hreturns
          exact absurd hreturns (by simp [returns, StoreFault.message?])
      | ok next => exact h.save_given hallowed.1 hallowed.2 hsave
  | snapshot asked => exact (h.snapshot hallowed).1
  | refresh translate translator locale sections =>
      obtain ⟨hsource, hcode, hmappings⟩ := hallowed
      refine h.refresh hsource hcode hmappings fun fault hfault ↦ ?_
      simp only [step, hfault, Except.map] at hreturns
      exact hreturns

namespace Runs

/-- A run leaves the store with what the files hold, and spares the dictionaries that the store does not keep,
apart from those that are saved. -/
theorem goes {ops : List Op} (hrun : Runs base codes session ops final) (h : IsCurrent base codes session) :
    IsCurrent base codes final ∧
      ∀ number, (∀ op ∈ ops, op.held? ≠ some number) → Spares session final number := by
  induction hrun with
  | none session => exact ⟨h, fun number _ ↦ (Extends.refl session).spares number⟩
  | @more session final op ops hallowed hreturns _ ih =>
      have hstep := step_goes h hallowed hreturns
      obtain ⟨hfinal, hspares⟩ := ih hstep.current
      refine ⟨hfinal, fun number hnumber ↦ ?_⟩
      exact (hstep.spares number (hnumber op (List.mem_cons_self ..))).trans
        (hspares number fun other hmem ↦ hnumber other (List.mem_cons_of_mem _ hmem))

end Runs

/-- What is loaded is what the file holds. -/
theorem IsCurrent.load_eq (h : IsCurrent base codes session) (code : Text) :
    (session.load base code).map (fun (number, next) ↦ next.object number) =
      base.read session.tree code := by
  rcases load_cases base session code with ⟨number, hkept, hload⟩ | ⟨-, fault, hread, hload⟩ |
    ⟨-, dictionary, hread, hload⟩
  · rw [hload, h.current code number hkept]
    rfl
  · rw [hload, hread]
    rfl
  · rw [hload, hread]
    exact congrArg Except.ok (object_make_last session dictionary)

/-- A text is looked up in what the file holds. -/
theorem IsCurrent.get_eq (h : IsCurrent base codes session) (code scope key : Text) :
    (session.step base (.get code scope key)).1 =
      (base.read session.tree code).map fun dictionary ↦ .text (dictionary.text? scope key) := by
  rw [← h.load_eq code]
  simp only [step]
  cases session.load base code with
  | error fault => rfl
  | ok loaded => rfl

/-- After any operations on a store that has not read anything, each dictionary that it keeps is what the file
of its locale holds, so what is loaded and what is looked up are answered from the files as they are now. The
copies that a snapshot gives are what the files hold at that time, and stay so whatever is asked later, unless
a copy is saved itself. This is for locales that have files of their own, and as long as no dictionary is
saved for a locale while the store keeps it for another one. -/
theorem store_current {tree : FileTree} (hfiles : base.HaveOwnFiles tree codes) {ops : List Op}
    (hrun : Runs base codes (start tree) ops session) :
    (∀ code dictionary, Entries.get? (session.view base).cache code = some dictionary →
      base.read session.tree code = .ok dictionary) ∧
    (∀ code, (session.load base code).map (fun (number, next) ↦ next.object number) =
      base.read session.tree code) ∧
    (∀ code scope key, (session.step base (.get code scope key)).1 =
      (base.read session.tree code).map fun dictionary ↦ .text (dictionary.text? scope key)) ∧
    ∀ asked copies, (∀ code ∈ asked, code ∈ codes) →
      (session.step base (.snapshot asked)).1 = .ok (.copies copies) →
      ∀ later final, Runs base codes (session.step base (.snapshot asked)).2 later final →
        ∀ code number, Entries.get? copies code = some number →
          (∀ op ∈ later, op.held? ≠ some number) →
            base.read session.tree code = .ok (final.object number) := by
  obtain ⟨hcurrent, -⟩ := hrun.goes (.start hfiles)
  refine ⟨fun code dictionary hkept ↦ ?_, hcurrent.load_eq, hcurrent.get_eq,
    fun asked copies hasked hcopies later final hlater code number hcopy hnever ↦ ?_⟩
  · rw [get_view] at hkept
    obtain ⟨number, hnumber, rfl⟩ := Option.map_eq_some_iff.mp hkept
    exact hcurrent.current code number hnumber
  · obtain ⟨hgoes, hspec⟩ := hcurrent.snapshot hasked
    have hfound : (session.snapshot base asked).1 = .ok copies := by
      simp only [step] at hcopies
      cases hresult : (session.snapshot base asked).1 with
      | error fault =>
          rw [hresult] at hcopies
          exact absurd hcopies (by simp [Except.map])
      | ok found =>
          rw [hresult] at hcopies
          rw [Answer.copies.inj (Except.ok.inj hcopies)]
    obtain ⟨hloose, hread⟩ := hspec copies hfound code number hcopy
    rw [((hlater.goes hgoes.current).2 number hnever hloose).2]
    exact hread

/-- A refresh from a file, a snapshot, and then another source: the snapshot keeps the first heading. -/
theorem store_current_teas :
    let german : Locale := ⟨"de".toList, "de/".toList, "de_DE".toList, "de".toList, "de".toList,
      "Deutsch".toList, [], none, []⟩
    let base := Store.fresh (FilePath.ofText "locales".toList) "en".toList
    let home : Location := ["work".toList, "locales".toList]
    let tree : FileTree := ⟨["work".toList], [(["work".toList], .directory), (home, .directory),
      (home ++ ["en.json".toList],
        .file (.text "\x7b\"home\": \x7b\"h1\": \"Teas\"\x7d\x7d".toList))]⟩
    let codes := ["en".toList, "de".toList]
    let translate : Dictionary.Translator Unit := fun _ _ _ _ ↦
      (.ok [("h1".toList, .string "Tees".toList)], ())
    let other : Dictionary := [("home".toList, .object [("h1".toList, .string "Fine teas".toList)])]
    let refreshed := ((start tree).step base (.refresh translate () german [])).2
    let taken := refreshed.step base (.snapshot codes)
    let final := (taken.2.step base (.save "en".toList (.made other))).2
    let copies : Entries Nat := [("en".toList, 3), ("de".toList, 5)]
    let heading (dictionary : Dictionary) := dictionary.text? "home".toList "h1".toList
    base.HaveOwnFiles tree codes ∧
      Runs base codes (start tree) [.refresh translate () german []] refreshed ∧
      Runs base codes taken.2 [.save "en".toList (.made other)] final ∧
      taken.1 = .ok (.copies copies) ∧
      (∀ code dictionary, Entries.get? (refreshed.view base).cache code = some dictionary →
        base.read refreshed.tree code = .ok dictionary) ∧
      (∀ code number, Entries.get? copies code = some number →
        base.read refreshed.tree code = .ok (final.object number)) ∧
      heading (final.object 3) = some "Teas".toList ∧ heading (final.object 5) = some "Tees".toList ∧
      (base.read final.tree "en".toList).map heading = .ok (some "Fine teas".toList) := by
  intro german base home tree codes translate other refreshed taken final copies heading
  have hclosed : tree.IsClosed := by
    refine FileTree.is_closed_of_nodes fun entry hentry ↦ ?_
    simp only [tree, List.mem_cons, List.not_mem_nil, or_false] at hentry
    rcases hentry with rfl | rfl | rfl <;> rfl
  have hfiles : base.HaveOwnFiles tree codes :=
    Store.have_own_files_of_plain hclosed (by decide) (.inl (by decide +kernel))
  have hother : Json.WellFormed (.object other) := by
    refine .object (List.nodup_singleton _) fun member hmem ↦ ?_
    rw [List.mem_singleton.mp hmem]
    refine .object (List.nodup_singleton _) fun entry hentry ↦ ?_
    rw [List.mem_singleton.mp hentry]
    exact .string _
  have hmappings : Dictionary.AnswersMappings translate german := by
    intro _ _ _ translation hanswer
    obtain rfl := Except.ok.inj hanswer
    refine .object (List.nodup_singleton _) fun entry hentry ↦ ?_
    rw [List.mem_singleton.mp hentry]
    exact .string _
  have hran : returns ((start tree).step base (.refresh translate () german [])).1 = true ∧
      returns (taken.2.step base (.save "en".toList (.made other))).1 = true ∧
      taken.1 = .ok (.copies copies) ∧ heading (final.object 3) = some "Teas".toList ∧
      heading (final.object 5) = some "Tees".toList ∧
      (base.read final.tree "en".toList).map heading = .ok (some "Fine teas".toList) := by
    decide +kernel
  obtain ⟨hrefresh, hsave, hcopies, hteas, htees, hfine⟩ := hran
  have hfirst : Runs base codes (start tree) [.refresh translate () german []] refreshed :=
    .more ⟨by decide, by decide, hmappings⟩ hrefresh (.none _)
  have hlater : Runs base codes taken.2 [.save "en".toList (.made other)] final :=
    .more ⟨by decide, hother⟩ hsave (.none _)
  obtain ⟨hcurrent, -, -, hspared⟩ := store_current hfiles hfirst
  refine ⟨hfiles, hfirst, hlater, hcopies, hcurrent, fun code number hcopy ↦ ?_, hteas, htees, hfine⟩
  exact hspared codes copies (fun _ hmem ↦ hmem) hcopies _ final hlater code number hcopy (by simp [Op.held?])

/-- What the conditions exclude, each time by operations that all return. Two codes spell one file; a path
leads through a directory that saving makes; a dictionary is saved for a second locale, whose refresh changes
it for both; and a copy that a snapshot gave is saved, and changed by the next refresh. -/
theorem store_drifts :
    let english : Locale := ⟨"en".toList, [], "en_GB".toList, "en".toList, "en".toList,
      "English".toList, [], none, []⟩
    let german : Locale := ⟨"de".toList, "de/".toList, "de_DE".toList, "de".toList, "de".toList,
      "Deutsch".toList, [], none, []⟩
    let base := Store.fresh (FilePath.ofText "locales".toList) "en".toList
    let behind := Store.fresh (FilePath.ofText "build/../locales".toList) "en".toList
    let home : Location := ["work".toList, "locales".toList]
    let tree : FileTree := ⟨["work".toList], [(["work".toList], .directory), (home, .directory),
      (home ++ ["en.json".toList],
        .file (.text "\x7b\"home\": \x7b\"h1\": \"Teas\"\x7d\x7d".toList))]⟩
    let other : Dictionary := [("home".toList, .object [("h1".toList, .string "Fine teas".toList)])]
    let translate : Dictionary.Translator Unit := fun _ _ _ _ ↦ (.error (.failed []), ())
    let loaded := (start tree).step base (.load "en".toList)
    let respelt := loaded.2.step base (.save "./en".toList (.made other))
    let missed := (start tree).step behind (.load "en".toList)
    let opened := missed.2.step behind (.save "de".toList (.made other))
    let shared := loaded.2.step base (.save "de".toList (.held 0))
    let refreshed := shared.2.step base (.refresh translate () german [])
    let taken := (start tree).step base (.snapshot ["en".toList])
    let given := taken.2.step base (.save "en".toList (.held 1))
    let changed := given.2.step base (.refresh translate () english [])
    let heading : Op := .get "en".toList "home".toList "h1".toList
    let headingOf (dictionary : Dictionary) := dictionary.text? "home".toList "h1".toList
    let localeOf (dictionary : Dictionary) := dictionary.text? "_meta".toList "locale".toList
    (returns loaded.1 = true ∧ returns respelt.1 = true ∧
      (respelt.2.step base heading).1 = .ok (.text (some "Teas".toList)) ∧
      (base.read respelt.2.tree "en".toList).map headingOf = .ok (some "Fine teas".toList)) ∧
    (returns missed.1 = true ∧ returns opened.1 = true ∧
      (opened.2.step behind heading).1 = .ok (.text none) ∧
      (behind.read opened.2.tree "en".toList).map headingOf = .ok (some "Teas".toList)) ∧
    (returns shared.1 = true ∧ returns refreshed.1 = true ∧
      (Entries.get? (refreshed.2.view base).cache "en".toList).map localeOf = some (some "de".toList) ∧
      (base.read refreshed.2.tree "en".toList).map localeOf = .ok none) ∧
    taken.1 = .ok (.copies [("en".toList, 1)]) ∧ returns given.1 = true ∧ returns changed.1 = true ∧
      localeOf (taken.2.object 1) = none ∧ localeOf (changed.2.object 1) = some "en".toList := by
  decide +kernel

end Session

end LocalizedSite
