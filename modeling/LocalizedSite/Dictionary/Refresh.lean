import LocalizedSite.Dictionary.Basic
import LocalizedSite.Locale
import LocalizedSite.Text.Basic
import LocalizedSite.Text.Quoted

/-!
# Refreshing a locale's dictionary

A refresh goes through scopes of the source dictionary. A scope that has as many entries in the target
as in the source is complete and is left alone. Any other is given to the translator, and its
translation replaces the target's scope if it has exactly the source's keys. The dictionary is saved
after each scope that was given to the translator, so a refresh is described by the list of the
dictionaries it saves, and an interrupted one leaves the last of them behind.
-/

namespace LocalizedSite.Dictionary

/-- The number of things in a value, if it can hold things. -/
def size? : Json → Option Nat
  | .string value => some value.length
  | .array items => some items.length
  | .object members => some members.length
  | _ => none

/-- Whether a target scope is complete: it is not empty and has as many entries as the source
scope. There is no answer for a number or a truth value. -/
def isComplete? (source : Entries Json) (target : Option Json) : Option Bool :=
  match target with
  | none => some false
  | some value =>
    if value.isEmptyValue then some false
    else (size? value).map fun size ↦ size == source.length

/-- Why a translation of a scope was not accepted. -/
inductive TranslationFault where
  /-- The service could not be reached. -/
  | unreachable (scope locale reason : Text)
  /-- The service answered with a failure. -/
  | refused (scope locale : Text) (status : Nat) (body : Text)
  /-- The answer is not JSON. -/
  | malformedAnswer (scope : Text)
  /-- The answer has no text. -/
  | emptyAnswer (scope : Text)
  /-- The text is not JSON. -/
  | malformedReply (body : Text)
  /-- The text is JSON, but not an object of strings. -/
  | unexpectedReply
  /-- The translation has other keys than the source. -/
  | otherKeys (scope : Text) (missing extra : List Text)
  /-- The translator gives another reason. -/
  | failed (reason : Text)
deriving DecidableEq, Repr

/-- The greatest number of characters of an answer that a message shows. -/
def shownLength : Nat := 200

/-- The wording of a fault. -/
def TranslationFault.message : TranslationFault → Text
  | .unreachable scope locale reason =>
    "Failed to reach translator for '".toList ++ scope ++ "' -> ".toList ++ locale ++
      ": ".toList ++ reason
  | .refused scope locale status body =>
    "Translator request for '".toList ++ scope ++ "' -> ".toList ++ locale ++
      " failed with status ".toList ++ Text.ofNat status ++ ": ".toList ++ body.take shownLength
  | .malformedAnswer scope =>
    "Translator response for '".toList ++ scope ++ "' was not valid JSON".toList
  | .emptyAnswer scope =>
    "Translator response for '".toList ++ scope ++ "' carried no text content".toList
  | .malformedReply body =>
    "Translator reply was not valid JSON: ".toList ++ body.take shownLength
  | .unexpectedReply => "Translator reply must be a JSON object of strings.".toList
  | .otherKeys scope missing extra =>
    "Key set mismatch for '".toList ++ scope ++ "': missing=".toList ++
      Text.quotedList missing ++ " extra=".toList ++ Text.quotedList extra
  | .failed reason => reason

/-- The names of a list that are not in another one, sorted and each once. -/
def namesWithout (names others : List Text) : List Text :=
  Text.sortBy id ((names.filter fun name ↦ !others.contains name).eraseDups)

/-- Whether a translation has exactly the keys of the source, and the fault if not. -/
def checkKeys (scope : Text) (source result : List Text) : Except TranslationFault Unit :=
  let missing := namesWithout source result
  let extra := namesWithout result source
  if missing.isEmpty && extra.isEmpty then .ok () else .error (.otherKeys scope missing extra)

/-- A translator with a state of its own: from a scope's name, its source entries and the locale it
makes the entries of the translation, or says why it cannot. -/
abbrev Translator (σ : Type) :=
  σ → Text → Entries Json → Locale → Except TranslationFault (Entries Json) × σ

/-- What a refresh did with each scope. -/
structure RefreshReport where
  /-- The scopes that were replaced. -/
  translated : List Text
  /-- The scopes that were complete. -/
  skipped : List Text
  /-- The scopes whose translation was not accepted. -/
  failed : List Text
  /-- The scopes that the source dictionary does not have. -/
  missing : List Text
deriving DecidableEq, Repr

/-- What happens to a scope in a refresh. -/
inductive ScopeOutcome where
  | missing
  | skipped
  | failed (fault : TranslationFault)
  | translated (entries : Entries Json)
  /-- The target's value cannot be compared with the source. -/
  | incomparable

/-- The state of a refresh: the target, the dictionaries saved so far with the last first, the
report so far, and the translator's state. -/
structure RefreshState (σ : Type) where
  /-- The dictionary under refresh. -/
  target : Dictionary
  /-- The dictionaries saved so far, last first. -/
  saved : List Dictionary
  /-- What was done so far. -/
  report : RefreshReport
  /-- The state of the translator. -/
  translator : σ

variable {σ : Type}

/-- Decide about one scope, asking the translator if need be. -/
def scopeOutcome (translate : Translator σ) (locale : Locale) (source target : Dictionary)
    (state : σ) (scope : Text) : ScopeOutcome × σ :=
  match source.scope? scope with
  | none => (.missing, state)
  | some entries =>
    match isComplete? entries (Entries.get? target scope) with
    | none => (.incomparable, state)
    | some true => (.skipped, state)
    | some false =>
      let (result, state) := translate state scope entries locale
      match result with
      | .error fault => (.failed fault, state)
      | .ok translation =>
        match checkKeys scope (Entries.names entries) (Entries.names translation) with
        | .error fault => (.failed fault, state)
        | .ok () => (.translated translation, state)

/-- Refresh one scope; the refresh stops if the target's value cannot be compared. When a locale is
refreshed from itself, the source is the dictionary under refresh. -/
def refreshScope (translate : Translator σ) (locale : Locale) (source : Option Dictionary)
    (state : RefreshState σ) (scope : Text) : Except (RefreshState σ) (RefreshState σ) :=
  let report := state.report
  let (outcome, translator) :=
    scopeOutcome translate locale (source.getD state.target) state.target state.translator scope
  match outcome with
  | .missing => .ok { state with report := { report with missing := report.missing ++ [scope] } }
  | .skipped => .ok { state with report := { report with skipped := report.skipped ++ [scope] } }
  | .incomparable => .error state
  | .failed _ =>
    .ok ⟨state.target, state.target :: state.saved,
      { report with failed := report.failed ++ [scope] }, translator⟩
  | .translated entries =>
    let target := Entries.put state.target scope (.object entries)
    .ok ⟨target, target :: state.saved,
      { report with translated := report.translated ++ [scope] }, translator⟩

/-- Refresh scopes in order. -/
def refreshScopes (translate : Translator σ) (locale : Locale) (source : Option Dictionary) :
    RefreshState σ → List Text → Except (RefreshState σ) (RefreshState σ)
  | state, [] => .ok state
  | state, scope :: scopes =>
    match refreshScope translate locale source state scope with
    | .error state => .error state
    | .ok state => refreshScopes translate locale source state scopes

/-- The dictionary at the beginning of a refresh: the header is that of the locale. -/
def withHeader (locale : Locale) (target : Dictionary) : Dictionary :=
  Entries.put target headerName (ofTexts locale.header)

/-- The scopes that a refresh goes through: those asked for, or all of the source. -/
def requestedScopes (sections : List Text) (source : Dictionary) : List Text :=
  if sections.isEmpty then translatableScopes source else sections

/-- Refresh a dictionary. Without a source the locale is refreshed from itself. If no scope was
given to the translator, the dictionary is saved once at the end. The error case is the state in
which the refresh stopped. -/
def refresh (translate : Translator σ) (translator : σ) (locale : Locale)
    (source : Option Dictionary) (sections : List Text) (target : Dictionary) :
    Except (RefreshState σ) (RefreshState σ) := do
  let target := withHeader locale target
  let start : RefreshState σ := ⟨target, [], ⟨[], [], [], []⟩, translator⟩
  let scopes := requestedScopes sections (source.getD target)
  let state ← refreshScopes translate locale source start scopes
  return if state.report.translated.isEmpty && state.report.failed.isEmpty then
    { state with saved := state.target :: state.saved }
  else state

end LocalizedSite.Dictionary
