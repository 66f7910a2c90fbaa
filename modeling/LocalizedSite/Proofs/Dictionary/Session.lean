import LocalizedSite.Proofs.Dictionary.Repeat
import LocalizedSite.Proofs.NameOrder

/-!
# A store whose dictionaries are objects

A store hands out the dictionaries that it keeps, and a refresh changes such a dictionary in place. So here a
dictionary is an object with a number, and the store keeps for each locale the number of its object
(`Session`). Several locales may come to share an object, which a store of values cannot tell. As long as they
do not (`Session.IsTidy`), each operation is that of the store with the dictionaries as they are at the moment
(`Session.view`): `load_view`, `save_view`, `snapshot_view` and `refresh_view`.
-/

namespace LocalizedSite

/-- A store at work, with the files that it reads and writes. -/
structure Session where
  /-- The files. -/
  tree : FileTree
  /-- The dictionaries that were made so far, each found under its number. -/
  objects : List Dictionary
  /-- The number of the dictionary that the store keeps for a locale. -/
  kept : Entries Nat

namespace Session

variable {σ : Type}

/-- A store that has not read anything. -/
def start (tree : FileTree) : Session :=
  ⟨tree, [], []⟩

/-- A dictionary as it is now. -/
def object (session : Session) (number : Nat) : Dictionary :=
  session.objects.getD number []

/-- The store, with the dictionaries that it keeps as they are now. -/
def view (base : Store) (session : Session) : Store :=
  { base with cache := Entries.mapValues session.object session.kept }

/-- Make a dictionary. -/
def make (session : Session) (dictionary : Dictionary) : Session :=
  { session with objects := session.objects ++ [dictionary] }

/-- Change a dictionary in place. -/
def change (session : Session) (number : Nat) (dictionary : Dictionary) : Session :=
  { session with objects := session.objects.set number dictionary }

/-- Keep a dictionary for a locale. -/
def keep (session : Session) (code : Text) (number : Nat) : Session :=
  { session with kept := Entries.put session.kept code number }

/-- The dictionary of a locale, made from its file unless the store has it. -/
def load (base : Store) (session : Session) (code : Text) : Except StoreFault (Nat × Session) :=
  match Entries.get? session.kept code with
  | some number => .ok (number, session)
  | none => (base.read session.tree code).map fun dictionary ↦
      (session.objects.length, (session.make dictionary).keep code session.objects.length)

/-- Write a dictionary and keep it. -/
def save (base : Store) (session : Session) (code : Text) (number : Nat) : Except FileError Session :=
  (base.writeFile session.tree code (session.object number)).map fun tree ↦
    ({ session with tree } : Session).keep code number

/-- Load the dictionaries of locales that have a file, and make a copy of each; one that is no JSON object is
left out. -/
def snapshotFrom (base : Store) :
    Session → Entries Nat → List Text → Except StoreFault (Entries Nat) × Session
  | session, found, [] => (.ok found, session)
  | session, found, code :: codes =>
    if base.hasFile session.tree code then
      match session.load base code with
      | .ok (number, next) =>
        snapshotFrom base (next.make (next.object number))
          (Entries.put found code next.objects.length) codes
      | .error fault =>
        if fault.message?.isSome then snapshotFrom base session found codes
        else (.error fault, session)
    else snapshotFrom base session found codes

/-- Copies of the dictionaries of locales as their files have them now. -/
def snapshot (base : Store) (session : Session) (codes : List Text) :
    Except StoreFault (Entries Nat) × Session :=
  snapshotFrom base { session with kept := [] } [] codes

/-- What a refresh leaves behind. -/
structure Refreshed (σ : Type) where
  /-- The report, or why the refresh stopped. -/
  result : Except StoreFault Dictionary.RefreshReport
  /-- The state of the translator. -/
  translator : σ
  /-- The files and the dictionaries. -/
  session : Session

/-- Refresh a locale's dictionary in place from the source locale's, which changes along with it if both are
the same object. -/
def refresh (base : Store) (session : Session) (translate : Dictionary.Translator σ) (translator : σ)
    (locale : Locale) (sections : List Text) : Refreshed σ :=
  match session.load base base.sourceCode with
  | .error fault => ⟨.error fault, translator, session⟩
  | .ok (source, session) =>
    match session.load base locale.code with
    | .error fault => ⟨.error fault, translator, session⟩
    | .ok (target, session) =>
      let fixed := if target = source then none else some (session.object source)
      let (state, stopped) :=
        match Dictionary.refresh translate translator locale fixed sections (session.object target) with
        | .ok state => (state, none)
        | .error state => (state, some StoreFault.incomparable)
      let kept := (session.change target state.target).keep locale.code target
      match base.writeAll locale.code session.tree state.saved.reverse with
      | .error (error, tree) => ⟨.error (.file error), state.translator, { kept with tree }⟩
      | .ok tree =>
        ⟨(match stopped with
          | some fault => .error fault
          | none => .ok state.report), state.translator, { kept with tree }⟩

variable {base : Store} {session next : Session} {code : Text} {number : Nat} {dictionary : Dictionary}

section Objects

/-- A dictionary that is there stays when another one is made. -/
theorem object_make (h : number < session.objects.length) (dictionary : Dictionary) :
    (session.make dictionary).object number = session.object number := by
  show (session.objects ++ [dictionary]).getD number [] = session.objects.getD number []
  rw [List.getD_eq_getElem?_getD, List.getD_eq_getElem?_getD, List.getElem?_append_left h]

/-- The dictionary that was made is the last one. -/
theorem object_make_last (session : Session) (dictionary : Dictionary) :
    (session.make dictionary).object session.objects.length = dictionary := by
  show (session.objects ++ [dictionary]).getD session.objects.length [] = dictionary
  rw [List.getD_eq_getElem?_getD, List.getElem?_concat_length, Option.getD_some]

/-- Changing a dictionary leaves the others. -/
theorem object_change (h : number < session.objects.length) (dictionary : Dictionary) (other : Nat) :
    (session.change number dictionary).object other =
      if other = number then dictionary else session.object other := by
  unfold object change
  rw [List.getD_eq_getElem?_getD, List.getElem?_set]
  by_cases hsame : other = number
  · simp [hsame, h]
  · rw [if_neg (Ne.symm hsame), if_neg hsame, List.getD_eq_getElem?_getD]

end Objects

/-- What comes of loading: the store has the dictionary, or its file cannot be read, or it is made from the
file. -/
theorem load_cases (base : Store) (session : Session) (code : Text) :
    (∃ number, Entries.get? session.kept code = some number ∧
        session.load base code = .ok (number, session)) ∨
      (Entries.get? session.kept code = none ∧ ∃ fault, base.read session.tree code = .error fault ∧
        session.load base code = .error fault) ∨
      Entries.get? session.kept code = none ∧ ∃ dictionary,
        base.read session.tree code = .ok dictionary ∧ session.load base code =
          .ok (session.objects.length,
            (session.make dictionary).keep code session.objects.length) := by
  unfold load
  cases Entries.get? session.kept code with
  | some number => exact .inl ⟨number, rfl, rfl⟩
  | none =>
      cases base.read session.tree code with
      | error fault => exact .inr (.inl ⟨rfl, fault, rfl, rfl⟩)
      | ok dictionary => exact .inr (.inr ⟨rfl, dictionary, rfl, rfl⟩)

/-- The store keeps dictionaries that are there, and none of them for two locales. -/
structure IsTidy (session : Session) : Prop where
  names : session.kept.names.Nodup
  bounded : ∀ code number, Entries.get? session.kept code = some number →
    number < session.objects.length
  own : ∀ first second number, Entries.get? session.kept first = some number →
    Entries.get? session.kept second = some number → first = second

/-- The number of a dictionary is free for a locale if the store keeps it for no other one. -/
def IsFree (session : Session) (code : Text) (number : Nat) : Prop :=
  number < session.objects.length ∧
    ∀ other, Entries.get? session.kept other = some number → other = code

namespace IsTidy

/-- A store that keeps nothing is tidy. -/
theorem of_empty (tree : FileTree) (objects : List Dictionary) : IsTidy ⟨tree, objects, []⟩ :=
  ⟨List.nodup_nil, fun _ _ hkept ↦ absurd hkept (by simp), fun _ _ _ hkept ↦ absurd hkept (by simp)⟩

/-- What a locale keeps is free for it. -/
theorem free (h : session.IsTidy) (hkept : Entries.get? session.kept code = some number) :
    session.IsFree code number :=
  ⟨h.bounded code number hkept, fun other hother ↦ h.own other code number hother hkept⟩

/-- A dictionary that was just made is free for any locale. -/
theorem free_make (h : session.IsTidy) (dictionary : Dictionary) (code : Text) :
    (session.make dictionary).IsFree code session.objects.length := by
  refine ⟨by simp [make], fun other hother ↦ ?_⟩
  exact absurd (h.bounded other _ hother) (Nat.lt_irrefl _)

/-- Making a dictionary leaves the store tidy. -/
theorem make (h : session.IsTidy) (dictionary : Dictionary) : (session.make dictionary).IsTidy := by
  refine ⟨h.names, fun code number hkept ↦ ?_, h.own⟩
  simpa [Session.make] using Nat.lt_succ_of_lt (h.bounded code number hkept)

/-- Keeping what is free leaves the store tidy. -/
theorem keep (h : session.IsTidy) (hfree : session.IsFree code number) :
    (session.keep code number).IsTidy where
  names := Entries.put_nodup h.names code number
  bounded other found hkept := by
    rw [Session.keep, Entries.get_put] at hkept
    split at hkept
    · rw [← Option.some.inj hkept]
      exact hfree.1
    · exact h.bounded other found hkept
  own first second found hfirst hsecond := by
    rw [Session.keep, Entries.get_put] at hfirst hsecond
    split at hfirst
    · next hcode =>
        rw [← Option.some.inj hfirst] at hsecond
        split at hsecond
        · next hother => rw [hcode, hother]
        · rw [hcode, hfree.2 second hsecond]
    · split at hsecond
      · next hother =>
          rw [← Option.some.inj hsecond] at hfirst
          rw [hother, hfree.2 first hfirst]
      · exact h.own first second found hfirst hsecond

/-- Changing a dictionary leaves the store tidy. -/
theorem change (h : session.IsTidy) (number : Nat) (dictionary : Dictionary) :
    (session.change number dictionary).IsTidy := by
  refine ⟨h.names, fun code found hkept ↦ ?_, h.own⟩
  simpa [Session.change] using h.bounded code found hkept

end IsTidy

/-- A store has made some dictionaries more, without changing any, and keeps nothing else that was there
before. -/
structure Extends (before after : Session) : Prop where
  tree : after.tree = before.tree
  length : before.objects.length ≤ after.objects.length
  objects : ∀ number, number < before.objects.length → after.object number = before.object number
  kept : ∀ code number, Entries.get? after.kept code = some number →
    Entries.get? before.kept code = some number ∨ before.objects.length ≤ number

namespace Extends

/-- A store may make nothing. -/
theorem refl (session : Session) : Extends session session :=
  ⟨rfl, Nat.le_refl _, fun _ _ ↦ rfl, fun _ _ ↦ .inl⟩

/-- What is made first and what is made then is made. -/
theorem trans {third : Session} (h : Extends session next) (hnext : Extends next third) :
    Extends session third where
  tree := hnext.tree.trans h.tree
  length := Nat.le_trans h.length hnext.length
  objects number hbound :=
    (hnext.objects number (Nat.lt_of_lt_of_le hbound h.length)).trans (h.objects number hbound)
  kept code number hkept := by
    rcases hnext.kept code number hkept with hbefore | hnew
    · exact h.kept code number hbefore
    · exact .inr (Nat.le_trans h.length hnew)

/-- One dictionary is made. -/
theorem make (session : Session) (dictionary : Dictionary) :
    Extends session (session.make dictionary) :=
  ⟨rfl, by simp [Session.make], fun _ hbound ↦ object_make hbound dictionary, fun _ _ ↦ .inl⟩

/-- One dictionary is made and kept. -/
theorem keep_made (session : Session) (dictionary : Dictionary) (code : Text) :
    Extends session ((session.make dictionary).keep code session.objects.length) where
  tree := rfl
  length := (make session dictionary).length
  objects := (make session dictionary).objects
  kept other number hkept := by
    rw [keep, Entries.get_put] at hkept
    split at hkept
    · exact .inr (Nat.le_of_eq (Option.some.inj hkept))
    · exact .inl hkept

end Extends

/-- Loading leaves the store tidy and makes at most one dictionary, which the store then has. -/
theorem load_spec (htidy : session.IsTidy) (h : session.load base code = .ok (number, next)) :
    next.IsTidy ∧ Extends session next ∧ Entries.get? next.kept code = some number := by
  rcases load_cases base session code with ⟨found, hkept, hload⟩ | ⟨-, fault, -, hload⟩ |
    ⟨-, dictionary, -, hload⟩
  · obtain ⟨rfl, rfl⟩ := Prod.mk.inj (Except.ok.inj (hload.symm.trans h))
    exact ⟨htidy, .refl session, hkept⟩
  · exact absurd (hload.symm.trans h) (by simp)
  · obtain ⟨rfl, rfl⟩ := Prod.mk.inj (Except.ok.inj (hload.symm.trans h))
    refine ⟨(htidy.make dictionary).keep (htidy.free_make dictionary code),
      .keep_made session dictionary code, ?_⟩
    rw [keep, Entries.get_put, if_pos rfl]

/-- What is kept stays when another locale is loaded. -/
theorem kept_of_load (h : session.load base code = .ok (number, next)) {other : Text} {found : Nat}
    (hkept : Entries.get? session.kept other = some found) :
    Entries.get? next.kept other = some found := by
  rcases load_cases base session code with ⟨_, -, hload⟩ | ⟨-, fault, -, hload⟩ |
    ⟨hnone, dictionary, -, hload⟩
  · obtain ⟨-, rfl⟩ := Prod.mk.inj (Except.ok.inj (hload.symm.trans h))
    exact hkept
  · exact absurd (hload.symm.trans h) (by simp)
  · obtain ⟨-, rfl⟩ := Prod.mk.inj (Except.ok.inj (hload.symm.trans h))
    have hne : other ≠ code := by
      rintro rfl
      exact absurd (hnone.symm.trans hkept) (by simp)
    rw [keep, Entries.get_put, if_neg hne]
    exact hkept

section View

/-- What the store has for a locale is the dictionary that it keeps, as it is now. -/
@[simp]
theorem get_view (base : Store) (session : Session) (code : Text) :
    Entries.get? (session.view base).cache code =
      (Entries.get? session.kept code).map session.object :=
  Entries.get_map_values _ _ _

/-- The store has the same if it keeps the same and nothing of that has changed. -/
theorem view_congr (hnames : session.kept.names.Nodup) (hkept : next.kept = session.kept)
    (hsame : ∀ code number, Entries.get? session.kept code = some number →
      next.object number = session.object number) : next.view base = session.view base := by
  unfold view
  rw [hkept, Entries.map_values_congr hnames hsame]

/-- Keeping a dictionary is keeping it as it is now. -/
theorem view_keep (session : Session) (code : Text) (number : Nat) :
    (session.keep code number).view base =
      (session.view base).keep code (session.object number) := by
  unfold view keep Store.keep
  rw [← Entries.map_values_put]
  rfl

/-- Making a dictionary does not change what the store has. -/
theorem view_make (htidy : session.IsTidy) (dictionary : Dictionary) :
    (session.make dictionary).view base = session.view base :=
  view_congr htidy.names rfl fun code number hkept ↦
    object_make (htidy.bounded code number hkept) dictionary

/-- Changing the dictionary of a locale and keeping it is keeping what it has become. -/
theorem view_change (htidy : session.IsTidy) (hkept : Entries.get? session.kept code = some number)
    (dictionary : Dictionary) : ((session.change number dictionary).keep code number).view base =
      (session.view base).keep code dictionary := by
  have hbound := htidy.bounded code number hkept
  have hget (other : Text) : Entries.get? (Entries.mapValues (session.change number dictionary).object
      session.kept) other =
        Entries.get? (Entries.put (Entries.mapValues session.object session.kept) code dictionary)
          other := by
    rw [Entries.get_map_values, Entries.get_put, Entries.get_map_values]
    by_cases hother : other = code
    · rw [if_pos hother, hother, hkept, Option.map_some, object_change hbound, if_pos rfl]
    · rw [if_neg hother]
      refine Option.map_congr fun found hfound ↦ ?_
      have hne : found ≠ number := by
        rintro rfl
        exact hother (htidy.own other code found hfound hkept)
      rw [object_change hbound, if_neg hne]
  have hmem : code ∈ (Entries.mapValues session.object session.kept).names := by
    rw [Entries.names_map_values]
    by_contra hnone
    rw [Entries.get_eq_none_iff.mpr hnone] at hkept
    exact absurd hkept (by simp)
  have hsame : ((session.change number dictionary).keep code number).kept = session.kept :=
    Entries.put_same hkept
  unfold view Store.keep
  rw [hsame]
  refine congrArg (fun cache ↦ { base with cache }) (Entries.eq_of_names ?_ ?_ hget)
  · rw [Entries.names_map_values]
    exact htidy.names
  · rw [Entries.names_put_present hmem, Entries.names_map_values, Entries.names_map_values]

/-- Loading is that of the store. -/
theorem load_view (htidy : session.IsTidy) (code : Text) :
    (session.view base).load session.tree code =
      (session.load base code).map fun (number, next) ↦ (next.object number, next.view base) := by
  have hread : (session.view base).read session.tree code = base.read session.tree code := rfl
  unfold Store.load
  rw [get_view, hread]
  rcases load_cases base session code with ⟨number, hkept, hload⟩ | ⟨hnone, fault, hread, hload⟩ |
    ⟨hnone, dictionary, hread, hload⟩
  · rw [hkept, hload]
    rfl
  · rw [hnone, hload, hread]
    rfl
  · rw [hnone, hload, hread]
    have hlast : ((session.make dictionary).keep code session.objects.length).object
        session.objects.length = dictionary := object_make_last session dictionary
    simp only [Option.map_none, Except.map]
    rw [view_keep, view_make htidy, object_make_last, hlast]

/-- Saving is that of the store. -/
theorem save_view (base : Store) (session : Session) (code : Text) (number : Nat) :
    (session.view base).save session.tree code (session.object number) =
      (session.save base code number).map fun next ↦ (next.tree, next.view base) := by
  have hwrite : (session.view base).writeFile session.tree code (session.object number) =
      base.writeFile session.tree code (session.object number) := rfl
  unfold Store.save save
  rw [hwrite]
  cases base.writeFile session.tree code (session.object number) with
  | error error => rfl
  | ok tree =>
      simp only [Except.map]
      rw [view_keep]
      rfl

/-- Copying some dictionaries is that of the store. -/
theorem snapshot_from_view (base : Store) (htidy : session.IsTidy) {found : Entries Nat}
    (hnames : found.names.Nodup)
    (hbounded : ∀ code number, Entries.get? found code = some number → number < session.objects.length)
    (codes : List Text) :
    let after := snapshotFrom base session found codes
    Store.snapshotFrom session.tree (session.view base) (Entries.mapValues session.object found) codes =
      (after.1.map (Entries.mapValues after.2.object), after.2.view base) := by
  induction codes generalizing session found with
  | nil => rfl
  | cons code codes ih =>
      intro after
      unfold after
      rw [Store.snapshotFrom, snapshotFrom, load_view htidy]
      have hfile : (session.view base).hasFile session.tree code = base.hasFile session.tree code := rfl
      rw [hfile]
      split
      · cases hload : session.load base code with
        | error fault =>
            simp only [Except.map]
            split
            · exact ih htidy hnames hbounded
            · rfl
        | ok loaded =>
            obtain ⟨number, next⟩ := loaded
            obtain ⟨hnext, hextends, -⟩ := load_spec htidy hload
            have hmade := hextends.trans (.make next (next.object number))
            have hcopies : Entries.mapValues (next.make (next.object number)).object
                (Entries.put found code next.objects.length) =
                  Entries.put (Entries.mapValues session.object found) code (next.object number) := by
              rw [Entries.map_values_put, object_make_last, Entries.map_values_congr hnames
                fun name copy hcopy ↦ hmade.objects copy (hbounded name copy hcopy)]
            have hrest := ih (hnext.make (next.object number))
              (Entries.put_nodup hnames code next.objects.length) fun name copy hcopy ↦ by
                rw [Entries.get_put] at hcopy
                split at hcopy
                · rw [← Option.some.inj hcopy]
                  simp [make]
                · exact Nat.lt_of_lt_of_le (hbounded name copy hcopy) hmade.length
            rw [hcopies, view_make hnext, hmade.tree] at hrest
            exact hrest
      · exact ih htidy hnames hbounded

/-- A snapshot is that of the store. -/
theorem snapshot_view (base : Store) (session : Session) (codes : List Text) :
    let after := session.snapshot base codes
    (session.view base).snapshot session.tree codes =
      (after.1.map (Entries.mapValues after.2.object), after.2.view base) := by
  intro after
  have hnames : (Entries.names ([] : Entries Nat)).Nodup := List.nodup_nil
  exact snapshot_from_view base (.of_empty session.tree session.objects) hnames
    (fun _ _ hfound ↦ absurd hfound (by simp)) codes

/-- A refresh is that of the store: the source changes along with the target exactly if a locale is refreshed
from itself. -/
theorem refresh_view (htidy : session.IsTidy) (translate : Dictionary.Translator σ) (translator : σ)
    (locale : Locale) (sections : List Text) :
    let after := session.refresh base translate translator locale sections
    (session.view base).refresh session.tree translate translator locale sections =
      ⟨after.result, after.translator, after.session.tree, after.session.view base⟩ := by
  intro after
  unfold after Store.refresh Store.source refresh
  rw [load_view htidy]
  have hcode : (session.view base).sourceCode = base.sourceCode := rfl
  rw [hcode]
  cases hfirst : session.load base base.sourceCode with
  | error fault => rfl
  | ok loaded =>
      obtain ⟨source, first⟩ := loaded
      obtain ⟨hfirstTidy, hfirstExtends, hsource⟩ := load_spec htidy hfirst
      simp only [Except.map]
      rw [← hfirstExtends.tree, load_view hfirstTidy]
      cases hsecond : first.load base locale.code with
      | error fault => rfl
      | ok loaded =>
          obtain ⟨target, second⟩ := loaded
          obtain ⟨hsecondTidy, hsecondExtends, htarget⟩ := load_spec hfirstTidy hsecond
          have hkept := kept_of_load hsecond hsource
          have hsame : locale.code = (second.view base).sourceCode ↔ target = source := by
            constructor
            · intro heq
              rw [heq] at htarget
              exact Option.some.inj (htarget.symm.trans hkept)
            · rintro rfl
              exact hsecondTidy.own _ _ _ htarget hkept
          have hvalue : second.object source = first.object source :=
            hsecondExtends.objects source (hfirstTidy.bounded _ _ hsource)
          simp only [Except.map, hsame, hvalue, ← hsecondExtends.tree]
          have hview (tree : FileTree) (dictionary : Dictionary) :
              ({ (second.change target dictionary).keep locale.code target with tree } : Session).view
                base = (second.view base).keep locale.code dictionary :=
            view_change hsecondTidy htarget dictionary
          have hwrite (tree : FileTree) (dictionaries : List Dictionary) :
              (second.view base).writeAll locale.code tree dictionaries =
                base.writeAll locale.code tree dictionaries := by
            have hdirectory : (second.view base).directory = base.directory := rfl
            exact Store.write_all_congr hdirectory locale.code tree dictionaries
          simp only [hwrite]
          cases Dictionary.refresh translate translator locale
              (if target = source then none else some (first.object source)) sections
              (second.object target) with
          | error state =>
              simp only
              cases base.writeAll locale.code second.tree state.saved.reverse with
              | error stopped =>
                  simp only
                  rw [hview]
              | ok tree =>
                  simp only
                  rw [hview]
          | ok state =>
              simp only
              cases base.writeAll locale.code second.tree state.saved.reverse with
              | error stopped =>
                  simp only
                  rw [hview]
              | ok tree =>
                  simp only
                  rw [hview]

end View

end Session

end LocalizedSite
