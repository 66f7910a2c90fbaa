import LocalizedSite.Proofs.Html.Progress
import LocalizedSite.Proofs.Html.Tag

/-!
# Reading piece by piece

`Reads` says which lexemes are read from the beginning of a text, and where reading stands then, inside
raw text or outside. A document of which a beginning is read so has the lexemes of the beginning and
those of the rest (`Reads.lex`); written tags and runs of text are such beginnings. The lexemes of a
document are a beginning of it, cut up (`lex_sources`).
-/

namespace LocalizedSite.Html

variable {references : References}

/-- From the beginning of a text, inside a raw text element or not, these lexemes are read, up to this
rest. -/
inductive Reads (references : References) :
    Option Text → Text → List Lexeme → Option Text → Text → Prop
  | here (raw : Option Text) (text : Text) : Reads references raw text [] raw text
  | step {raw next last : Option Text} {text rest following : Text} {lexeme : Lexeme}
      {lexemes : List Lexeme} (hne : text ≠ [])
      (hstep : Html.step references false raw text = .read lexeme next rest)
      (h : Reads references next rest lexemes last following) :
      Reads references raw text (lexeme :: lexemes) last following

namespace Reads

variable {raw next last : Option Text} {text rest following : Text} {first second : List Lexeme}

/-- Reading goes on where it stands. -/
theorem trans (hfirst : Reads references raw text first next rest)
    (hsecond : Reads references next rest second last following) :
    Reads references raw text (first ++ second) last following := by
  induction hfirst with
  | here => exact hsecond
  | step hne hstep _ ih => exact .step hne hstep (ih hsecond)

/-- There are no more lexemes than characters that are read. -/
theorem length_le (h : Reads references raw text first next rest) :
    first.length + rest.length ≤ text.length := by
  induction h with
  | here => simp
  | @step raw next last text rest following lexeme lexemes hne hstep _ ih =>
      have hprogress := step_progress hne references false raw
      rw [hstep] at hprogress
      simp only [Step.Shortens] at hprogress
      simp only [List.length_cons]
      omega

end Reads

section Rounds

/-- A round goes on from a step that was read. -/
theorem round_of_read {final : Bool} {fuel : Nat} {state : Round} {lexeme : Lexeme}
    {raw : Option Text} {rest : Text} (hne : state.rest ≠ [])
    (h : step references final state.raw state.rest = .read lexeme raw rest) :
    round references final (fuel + 1) state =
      round references final fuel ⟨lexeme :: state.lexemes, raw, rest⟩ := by
  rw [round, if_neg (by simpa using hne), h]

/-- Fuel for every character is enough. -/
theorem round_fuel {final : Bool} {fuel more : Nat} {state : Round}
    (hfuel : state.rest.length ≤ fuel) (hmore : fuel ≤ more) :
    round references final fuel state = round references final more state := by
  induction more generalizing fuel state with
  | zero => rw [Nat.le_zero.mp hmore]
  | succ more ih =>
      by_cases hempty : state.rest = []
      · cases fuel <;> simp [round, hempty]
      · have hpositive := List.length_pos_iff.mpr hempty
        obtain ⟨less, rfl⟩ : ∃ less, fuel = less + 1 := ⟨fuel - 1, by omega⟩
        have hprogress := step_progress hempty references final state.raw
        rw [round, round, if_neg (by simpa using hempty), if_neg (by simpa using hempty)]
        split
        · next lexeme raw rest hstep =>
            rw [hstep] at hprogress
            simp only [Step.Shortens] at hprogress
            exact ih (by simp only; omega) (by omega)
        · rfl
        · rfl
        · rfl

/-- The lexemes read before are kept behind those of a round. -/
theorem round_append {final : Bool} (fuel : Nat) (lexemes before : List Lexeme) (raw : Option Text)
    (rest : Text) : round references final fuel ⟨lexemes ++ before, raw, rest⟩ =
      (round references final fuel ⟨lexemes, raw, rest⟩).map fun state ↦
        { state with lexemes := state.lexemes ++ before } := by
  induction fuel generalizing lexemes raw rest with
  | zero => rfl
  | succ fuel ih =>
      simp only [round]
      split
      · rfl
      · split
        · next lexeme next following hstep => exact ih (lexeme :: lexemes) next following
        · rfl
        · rfl
        · rfl

/-- What was read stands before the lexemes of the round that goes on. -/
theorem Reads.round_eq {raw next : Option Text} {text rest : Text} {lexemes : List Lexeme}
    (h : Reads references raw text lexemes next rest) (before : List Lexeme) {fuel : Nat}
    (hfuel : text.length ≤ fuel) :
    round references false fuel ⟨before, raw, text⟩ =
      round references false rest.length ⟨lexemes.reverse ++ before, next, rest⟩ := by
  induction h generalizing before fuel with
  | here raw text => exact (round_fuel (Nat.le_refl _) hfuel).symm
  | @step raw next last text rest following lexeme lexemes hne hstep _ ih =>
      have hpositive := List.length_pos_iff.mpr hne
      have hprogress := step_progress hne references false raw
      rw [hstep] at hprogress
      simp only [Step.Shortens] at hprogress
      obtain ⟨less, rfl⟩ : ∃ less, fuel = less + 1 := ⟨fuel - 1, by omega⟩
      rw [round_of_read hne hstep, ih (lexeme :: before) (by omega)]
      simp

/-- A round keeps the text, as the characters of the lexemes and what is left. -/
theorem round_sources {final : Bool} {fuel : Nat} {state last : Round}
    (h : round references final fuel state = some last) :
    last.lexemes.reverse.flatMap Lexeme.source ++ last.rest =
      state.lexemes.reverse.flatMap Lexeme.source ++ state.rest := by
  induction fuel generalizing state with
  | zero =>
      obtain rfl := Option.some.inj h
      rfl
  | succ fuel ih =>
      rw [round] at h
      split at h
      · obtain rfl := Option.some.inj h
        rfl
      · next hempty =>
          have hkeeps := step_keeps (by simpa using hempty) references final state.raw
          split at h
          · next lexeme raw rest hstep =>
              rw [hstep] at hkeeps
              rw [ih h, hkeeps.1]
              simp
          · next lexeme rest hstep =>
              rw [hstep] at hkeeps
              obtain rfl := Option.some.inj h
              rw [show state.rest = _ from hkeeps]
              simp
          · obtain rfl := Option.some.inj h
            rfl
          · exact absurd h (by simp)

end Rounds

/-- The lexemes that two rounds read, first to last. -/
def finished (state : Round) : List Lexeme :=
  (if state.rest.isEmpty || state.raw.isSome then state.lexemes
    else .ofText state.rest :: state.lexemes).reverse

/-- The lexemes of a document are those of the second round. -/
theorem lex_eq (text : Text) : lex? references text =
    (round references false text.length ⟨[], none, text⟩).bind fun first ↦
      (round references true first.rest.length first).map finished := by
  simp only [lex?, bind, Option.map_eq_bind]
  rfl

/-- The lexemes read before stand before the others. -/
theorem finished_append (state : Round) (before : List Lexeme) :
    finished { state with lexemes := state.lexemes ++ before } = before.reverse ++ finished state := by
  simp only [finished]
  split <;> simp

/-- A document of which a beginning is read has the lexemes of the beginning and of the rest. -/
theorem Reads.lex {text rest : Text} {lexemes : List Lexeme}
    (h : Reads references none text lexemes none rest) :
    lex? references text = (lex? references rest).map (lexemes ++ ·) := by
  have hfirst := h.round_eq [] (Nat.le_refl _)
  rw [lex_eq, lex_eq, hfirst, List.append_nil, ← List.nil_append lexemes.reverse, round_append]
  cases round references false rest.length ⟨[], none, rest⟩ with
  | none => rfl
  | some state =>
      obtain ⟨found, raw, remaining⟩ := state
      simp only [Option.map_some, Option.bind_some, round_append]
      cases round references true remaining.length ⟨found, raw, remaining⟩ with
      | none => rfl
      | some state => simp [finished_append]

/-- The lexemes of a document are a beginning of it, cut up. -/
theorem lex_sources {text : Text} {lexemes : List Lexeme} (h : lex? references text = some lexemes) :
    lexemes.flatMap Lexeme.source <+: text := by
  rw [lex_eq, Option.bind_eq_some_iff] at h
  obtain ⟨first, hfirst, hlast⟩ := h
  obtain ⟨last, hsecond, rfl⟩ := Option.map_eq_some_iff.mp hlast
  have htext := (round_sources hsecond).trans (round_sources hfirst)
  simp only [List.reverse_nil, List.flatMap_nil, List.nil_append] at htext
  rw [← htext, finished]
  split
  · exact List.prefix_append _ _
  · refine ⟨[], ?_⟩
    simp [Lexeme.ofText]

section Pieces

variable {rest : Text}

/-- A construct that is read outside of raw text. -/
theorem reads_construct {text : Text} {lexeme : Lexeme}
    (h : readConstruct ('<' :: text) = .complete lexeme rest)
    (hraw : lexeme.token.bind Token.opensRawText? = none) :
    Reads references none ('<' :: text) [lexeme] none rest := by
  refine .step (by simp) ?_ (.here none rest)
  have hspan : ('<' :: text).span (fun character ↦ !endsText references character) =
      ([], '<' :: text) :=
    span_cons_of_not (by simp [endsText]) _
  simp only [step, hspan, List.head?_cons, if_true, readMarkup, h, hraw]

/-- A written tag is read, if it opens no raw text. -/
theorem reads_start_tag {name blanks : Text} (hname : IsTagName name)
    (hraw : rawTextElements.contains (Text.lower name) = false)
    {attributes : List WrittenAttribute} (hattributes : ∀ written ∈ attributes, written.IsWellFormed)
    (hblanks : ∀ character ∈ blanks, isTagBlank character = true) (rest : Text) :
    ∃ source, Reads references none (startTagText name attributes blanks ++ rest)
      [⟨source, some (.start (Text.lower name) (attributes.map WrittenAttribute.meant) false)⟩]
      none rest := by
  obtain ⟨source, hread⟩ := read_start_tag_written hname hattributes hblanks rest
  refine ⟨source, reads_construct hread ?_⟩
  simp only [Option.bind_some, Token.opensRawText?, hraw]
  rfl

/-- A run of text is read up to the next markup or reference. -/
theorem reads_run {run : Text} (hne : run ≠ [])
    (hrun : ∀ character ∈ run, endsText references character = false) {next : Char}
    (hnext : endsText references next = true) (rest : Text) :
    Reads references none (run ++ next :: rest) [.ofText run] none (next :: rest) := by
  obtain ⟨first, others, rfl⟩ := List.exists_cons_of_ne_nil hne
  have hspan : (first :: others ++ next :: rest).span (fun character ↦ !endsText references character) =
      (first :: others, next :: rest) :=
    Text.span_append _ (fun found hmem ↦ by simp [hrun found hmem]) fun character hhead ↦ by
      obtain rfl := Option.some.inj hhead
      simp [hnext]
  refine .step (by simp) ?_ (.here none _)
  simp only [step, hspan]

/-- A run of text is read up to the next tag. -/
theorem reads_text {data : Text} (hne : data ≠ [])
    (hdata : ∀ character ∈ data, endsText references character = false) (rest : Text) :
    Reads references none (data ++ '<' :: rest) [.ofText data] none ('<' :: rest) :=
  reads_run hne hdata (by simp [endsText]) rest

/-- A text that is read as these lexemes in front of every tag. -/
def ReadsBeforeTag (references : References) (text : Text) (lexemes : List Lexeme) : Prop :=
  ∀ rest, Reads references none (text ++ '<' :: rest) lexemes none ('<' :: rest)

theorem reads_before_tag_nil : ReadsBeforeTag references [] [] :=
  fun rest ↦ .here none ('<' :: rest)

/-- A run of text stands in front of a tag. -/
theorem reads_before_tag_text {data : Text} (hne : data ≠ [])
    (hdata : ∀ character ∈ data, endsText references character = false) :
    ReadsBeforeTag references data [.ofText data] :=
  reads_text hne hdata

end Pieces

end LocalizedSite.Html
