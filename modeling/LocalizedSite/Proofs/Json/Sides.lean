import LocalizedSite.Proofs.Json.Literal
import LocalizedSite.Proofs.Json.Quotes

/-!
# The sides of a quote

Quotes divide a JSON text: what stands in a literal is inside, and the rest outside, where nothing but
blanks, delimiters and the characters of numbers and of names of values stands (`parse_sides`). A piece
of a text that begins inside of a literal has its quotes the other way round. If it is a JSON text all the
same, then what is inside in one reading is outside in the other, so that it has only such characters
(`outer_of_both`).
-/

namespace LocalizedSite.Json

/-- A side of the quotes. -/
inductive Side where
  | outside
  | inside
  /-- Inside, behind a backslash. -/
  | escape
deriving DecidableEq

/-- Whether a character may stand outside of the literals. -/
def isOuter (character : Char) : Bool :=
  isGap character || isAtomCharacter character || "[]\x7b\x7d:,".toList.contains character

/-- The side behind a character, unless it may not stand there. -/
def Side.next? : Side → Char → Option Side
  | .outside, character =>
    if character = '"' then some .inside else if isOuter character then some .outside else none
  | .inside, character =>
    some (if character = '"' then .outside else if character = '\\' then .escape else .inside)
  | .escape, _ => some .inside

/-- The side behind a text, unless a character may not stand where it does. -/
def Side.after? (side : Side) (text : Text) : Option Side :=
  text.foldlM Side.next? side

namespace Side

variable {side : Side} {character : Char} {text front back : Text}

@[simp]
theorem after_nil (side : Side) : side.after? [] = some side := rfl

theorem after_cons (side : Side) (character : Char) (text : Text) :
    side.after? (character :: text) = (side.next? character).bind (·.after? text) := rfl

theorem after_append (side : Side) (front back : Text) :
    side.after? (front ++ back) = (side.after? front).bind (·.after? back) :=
  List.foldlM_append

/-- Characters that may stand outside keep a text outside. -/
theorem outside_after (h : ∀ character ∈ text, isOuter character = true) :
    outside.after? text = some .outside := by
  have hquote : isOuter '"' = false := by decide
  induction text with
  | nil => rfl
  | cons character text ih =>
      obtain ⟨hcharacter, htext⟩ := List.forall_mem_cons.mp h
      have hne : character ≠ '"' := by
        rintro rfl
        exact absurd (hquote.symm.trans hcharacter) (by decide)
      rw [after_cons, next?, if_neg hne, if_pos hcharacter]
      exact ih htext

/-- Characters other than quotes and backslashes keep a text inside. -/
theorem inside_after (h : ∀ character ∈ text, character ≠ '"' ∧ character ≠ '\\') :
    inside.after? text = some .inside := by
  induction text with
  | nil => rfl
  | cons character text ih =>
      obtain ⟨⟨hquote, hslash⟩, htext⟩ := List.forall_mem_cons.mp h
      rw [after_cons, next?, if_neg hquote, if_neg hslash]
      exact ih htext

/-- A text that can be read from both sides has only quotes and characters that may stand outside. -/
theorem outer_of_both {last other : Side} (houtside : outside.after? text = some last)
    (hinside : inside.after? text = some other) :
    ∀ character ∈ text, character = '"' ∨ isOuter character = true := by
  induction text generalizing last other with
  | nil => exact fun _ hmem ↦ absurd hmem List.not_mem_nil
  | cons character text ih =>
      rw [after_cons, next?] at houtside
      rw [after_cons, next?] at hinside
      refine List.forall_mem_cons.mpr ?_
      by_cases hquote : character = '"'
      -- behind a quote the two readings have changed their sides
      · rw [if_pos hquote] at houtside hinside
        exact ⟨.inl hquote, ih hinside houtside⟩
      · rw [if_neg hquote] at houtside hinside
        by_cases houter : isOuter character = true
        · have hslash : character ≠ '\\' := by
            rintro rfl
            exact absurd houter (by decide)
          rw [if_pos houter] at houtside
          rw [if_neg hslash] at hinside
          exact ⟨.inr houter, ih houtside hinside⟩
        · rw [if_neg houter] at houtside
          exact absurd houtside (by simp)

end Side

open Side

/-- The content of a string literal stands inside, up to the closing quote. -/
theorem Encodes.sides {content : Text} {units : List Nat} (h : Encodes content units) :
    inside.after? content = some .inside := by
  induction h with
  | nil => rfl
  | @unit first second third fourth unit content units hunit _ ih =>
      have hdigits : ∀ digit ∈ [first, second, third, fourth], digit ≠ '"' ∧ digit ≠ '\\' := by
        intro digit hmem
        constructor
        · rintro rfl
          exact not_mem_of_unit (show Text.hexDigitValue? '"' = none by decide) hunit hmem
        · rintro rfl
          exact not_mem_of_unit (show Text.hexDigitValue? '\\' = none by decide) hunit hmem
      have hescape : '\\' :: 'u' :: first :: second :: third :: fourth :: content =
          ['\\', 'u'] ++ ([first, second, third, fourth] ++ content) := rfl
      have hslash : inside.after? ['\\', 'u'] = some .inside := by decide
      rw [hescape, after_append, hslash, Option.bind_some, after_append, inside_after hdigits,
        Option.bind_some, ih]
  | escape _ _ _ ih => exact ih
  | plain hquote hslash _ _ ih =>
      rw [after_cons, next?, if_neg hquote, if_neg hslash]
      exact ih

/-- Behind a string literal a text is outside again. -/
theorem IsContent.sides {content text : Text} (h : IsContent content text) (rest : Text) :
    outside.after? ('"' :: (content ++ '"' :: rest)) = outside.after? rest := by
  obtain ⟨units, hencodes, -⟩ := h.encodes
  show inside.after? (content ++ '"' :: rest) = _
  rw [after_append, hencodes.sides]
  rfl

theorem IsGap.sides {gap : Text} (h : IsGap gap) : outside.after? gap = some .outside :=
  outside_after fun character hmem ↦ by simp [isOuter, h character hmem]

theorem IsAtom.sides {text : Text} {value : Json} (h : IsAtom text value) :
    outside.after? text = some .outside :=
  outside_after fun character hmem ↦ by simp [isOuter, h.plain character hmem]

/-- What is spelled without open strings begins and ends outside. -/
theorem Spells.sides {part : Part Unit} {cuts : Cuts Unit} (h : Spells (fun _ ↦ False) part cuts) :
    outside.after? (cuts.text fun _ ↦ []) = some .outside := by
  have hbracket (rest : Text) : outside.after? ('[' :: rest) = outside.after? rest := rfl
  have hend (rest : Text) : outside.after? (']' :: rest) = outside.after? rest := rfl
  have hbrace (rest : Text) : outside.after? ('\x7b' :: rest) = outside.after? rest := rfl
  have hclose (rest : Text) : outside.after? ('\x7d' :: rest) = outside.after? rest := rfl
  have hcomma (rest : Text) : outside.after? (',' :: rest) = outside.after? rest := rfl
  have hcolon (rest : Text) : outside.after? (':' :: rest) = outside.after? rest := rfl
  induction h with
  | atom h => simpa using h.sides
  | string h => simpa using h.sides []
  | hole h => exact absurd h id
  | emptyArray hgap => simp [hbracket, hend, after_append, hgap.sides]
  | array hgap _ ih => simp [hbracket, after_append, hgap.sides, ih]
  | emptyObject hgap => simp [hbrace, hclose, after_append, hgap.sides]
  | object hgap _ ih => simp [hbrace, after_append, hgap.sides, ih]
  | lastItem _ hgap ih => simp [hend, after_append, hgap.sides, ih]
  | item _ hbefore hafter _ ih ihOthers =>
      simp [hcomma, after_append, hbefore.sides, hafter.sides, ih, ihOthers]
  | lastMember hname hbefore hafter _ hgap ih =>
      simp [hname.sides, hcolon, hclose, after_append, hbefore.sides, hafter.sides, hgap.sides, ih]
  | member hname hbefore hafter _ hbehind hnext _ ih ihOthers =>
      simp [hname.sides, hcolon, hcomma, after_append, hbefore.sides, hafter.sides, hbehind.sides,
        hnext.sides, ih, ihOthers]

/-- A text that is read as a value begins and ends outside. -/
theorem parse_sides {text : Text} {value : Json} (h : parse text = .ok value) :
    outside.after? text = some .outside := by
  obtain ⟨shape, before, after, inner, hbefore, hafter, hspells, -, htext⟩ := spells_of_parse h
  rw [htext, after_append, hbefore.sides, Option.bind_some, after_append, hspells.sides,
    Option.bind_some, hafter.sides]

/-- A content without backslashes is read as it stands. -/
theorem Decodes.eq_of_plain {content text : Text} (h : Decodes content text) (hslash : '\\' ∉ content) :
    text = content := by
  induction h with
  | nil => rfl
  | plain _ _ ih => rw [ih fun hmem ↦ hslash (List.mem_cons_of_mem _ hmem)]
  | escape => exact absurd (List.mem_cons_self ..) hslash

/-- What a value mentions that is read from a text without backslashes stands in the text as it is. -/
theorem subset_of_mentions {name text : Text} {value : Json} (h : parse text = .ok value)
    (hslash : '\\' ∉ text) (hmention : Mentions name value) : name ⊆ text := by
  obtain ⟨front, content, back, hcontent, rfl⟩ := literal_of_mentions h hmention
  have hnone : '\\' ∉ content := fun hmem ↦ hslash (by simp [hmem])
  have hescape : ¬ unitEscape <:+: content := fun hpiece ↦
    hnone (hpiece.subset (List.mem_cons_self ..))
  rw [(hcontent.decodes hescape).eq_of_plain hnone]
  intro character hmem
  simp [hmem]

/-- A text that can be read from inside of a literal and is also read as a value mentions nothing but
characters that may stand outside. -/
theorem outer_of_mentions {text name : Text} {value : Json} {last : Side} (h : parse text = .ok value)
    (hinside : inside.after? text = some last) (hmention : Mentions name value) :
    ∀ character ∈ name, character = '"' ∨ isOuter character = true := by
  have houter := outer_of_both (parse_sides h) hinside
  have hslash : '\\' ∉ text := fun hmem ↦ absurd (houter _ hmem) (by decide)
  exact fun character hmem ↦ houter character (subset_of_mentions h hslash hmention hmem)

end LocalizedSite.Json
