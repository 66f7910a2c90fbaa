import LocalizedSite.Proofs.Json.Accepted
import LocalizedSite.Proofs.Json.Mention

/-!
# Quotes in JSON texts

A quote stands around the literals of a JSON text, and inside them only behind a backslash. So nowhere in
it stands a quote behind an equals sign and before a character that does not go on behind a literal
(`parse_no_quote_mark`), as it does in an attribute, also in one with a placeholder for its value.
-/

namespace LocalizedSite.Json

/-- What stands before a rest of a text has only characters of numbers and of names of values. -/
def PlainUpTo (text rest : Text) : Prop :=
  ∃ front, text = front ++ rest ∧ ∀ character ∈ front, isAtomCharacter character = true

section Atoms

variable {text middle rest : Text}

theorem PlainUpTo.refl (text : Text) : PlainUpTo text text :=
  ⟨[], rfl, fun _ hmem ↦ absurd hmem List.not_mem_nil⟩

theorem PlainUpTo.trans (hfirst : PlainUpTo text middle) (hsecond : PlainUpTo middle rest) :
    PlainUpTo text rest := by
  obtain ⟨front, rfl, hfront⟩ := hfirst
  obtain ⟨back, rfl, hback⟩ := hsecond
  exact ⟨front ++ back, by simp, List.forall_mem_append.mpr ⟨hfront, hback⟩⟩

/-- One character more. -/
theorem PlainUpTo.cons {character : Char} (hcharacter : isAtomCharacter character = true)
    (h : PlainUpTo text rest) : PlainUpTo (character :: text) rest :=
  PlainUpTo.trans ⟨[character], rfl, by simpa using hcharacter⟩ h

/-- A run of digits is plain. -/
theorem plain_up_to_span {digits : Text} (h : text.span Text.isLatinDigit = (digits, rest)) :
    PlainUpTo text rest := by
  obtain ⟨htext, hdigits, -⟩ := Text.span_spec h
  exact ⟨digits, htext, fun digit hmem ↦ atom_character_of_digit (hdigits digit hmem)⟩

theorem plain_up_to_whole {whole : Text} (h : readWhole text = some (whole, rest)) :
    PlainUpTo text rest := by
  unfold readWhole at h
  split at h
  · obtain ⟨-, rfl⟩ := Prod.mk.inj (Option.some.inj h)
    exact (PlainUpTo.refl _).cons (by decide)
  · split at h
    · exact absurd h (by simp)
    · next hspan =>
        obtain ⟨-, rfl⟩ := Prod.mk.inj (Option.some.inj h)
        exact plain_up_to_span hspan

theorem plain_up_to_fraction {fraction : Text} (h : readFraction text = (fraction, rest)) :
    PlainUpTo text rest := by
  unfold readFraction at h
  split at h
  · split at h
    · obtain ⟨-, rfl⟩ := Prod.mk.inj h
      exact .refl _
    · next hspan =>
        obtain ⟨-, rfl⟩ := Prod.mk.inj h
        exact (plain_up_to_span hspan).cons (by decide)
  · obtain ⟨-, rfl⟩ := Prod.mk.inj h
    exact .refl _

theorem plain_up_to_sign {negative : Bool} (h : readSign text = (negative, rest)) :
    PlainUpTo text rest := by
  unfold readSign at h
  split at h
  · obtain ⟨-, rfl⟩ := Prod.mk.inj h
    exact (PlainUpTo.refl _).cons (by decide)
  · obtain ⟨-, rfl⟩ := Prod.mk.inj h
    exact (PlainUpTo.refl _).cons (by decide)
  · obtain ⟨-, rfl⟩ := Prod.mk.inj h
    exact .refl _

theorem plain_up_to_exponent {exponent : Option Int} (h : readExponent text = (exponent, rest)) :
    PlainUpTo text rest := by
  cases text with
  | nil =>
      obtain ⟨-, rfl⟩ := Prod.mk.inj h
      exact .refl _
  | cons mark text =>
      by_cases hmark : mark = 'e' ∨ mark = 'E'
      · have hletter : isAtomCharacter mark = true := by
          rcases hmark with rfl | rfl <;> decide
        rw [read_exponent_mark hmark] at h
        split at h
        · obtain ⟨-, rfl⟩ := Prod.mk.inj h
          exact .refl _
        · next hspan =>
            obtain ⟨-, rfl⟩ := Prod.mk.inj h
            exact ((plain_up_to_sign (Prod.mk.eta (p := readSign text)).symm).trans
              (plain_up_to_span hspan)).cons hletter
      · have hnone : readExponent (mark :: text) = (none, mark :: text) := if_neg hmark
        rw [hnone] at h
        obtain ⟨-, rfl⟩ := Prod.mk.inj h
        exact .refl _

theorem plain_up_to_unsigned {negative : Bool} {value : Json}
    (h : readUnsigned negative text = some (value, rest)) : PlainUpTo text rest := by
  unfold readUnsigned at h
  obtain ⟨⟨whole, afterWhole⟩, hwhole, hvalue⟩ := Option.map_eq_some_iff.mp h
  have hfraction := plain_up_to_fraction (Prod.mk.eta (p := readFraction afterWhole)).symm
  have hexponent :=
    plain_up_to_exponent (Prod.mk.eta (p := readExponent (readFraction afterWhole).2)).symm
  have hrest : (readExponent (readFraction afterWhole).2).2 = rest := by
    simp only at hvalue
    split at hvalue
    · exact (Prod.mk.inj hvalue).2
    · exact (Prod.mk.inj hvalue).2
  rw [← hrest]
  exact ((plain_up_to_whole hwhole).trans hfraction).trans hexponent

/-- A value without parts is written with such characters only. -/
theorem plain_up_to_atom {value : Json} (h : readAtom text = .ok (value, rest)) :
    PlainUpTo text rest := by
  rcases read_atom_cases h with ⟨name, hmem, htext⟩ | hnumber
  · have hplain : literals.all (fun literal ↦ literal.1.all isAtomCharacter) = true := by decide
    have hletters := List.all_eq_true.mp hplain _ hmem
    exact ⟨name, htext, List.all_eq_true.mp hletters⟩
  · cases text with
    | nil => exact absurd hnumber (show (none : Option (Json × Text)) ≠ _ by simp)
    | cons character text =>
        by_cases hminus : character = '-'
        · subst hminus
          rw [read_number_minus] at hnumber
          exact (plain_up_to_unsigned hnumber).cons (by decide)
        · rw [read_number_plain hminus] at hnumber
          exact plain_up_to_unsigned hnumber

/-- A value without parts has such characters only. -/
theorem IsAtom.plain {value : Json} (h : IsAtom text value) :
    ∀ character ∈ text, isAtomCharacter character = true := by
  obtain ⟨front, hfront, hplain⟩ := plain_up_to_atom (h [] (by simp [Delimited]))
  rw [List.append_nil, List.append_nil] at hfront
  rwa [hfront]

end Atoms

section Literals

/-- A quote behind an equals sign. -/
def valueQuote : Text := ['=', '"']

/-- The beginning of a quoted attribute value, from the equals sign on up to its first character. -/
def quoteMark (next : Char) : Text := valueQuote ++ [next]

/-- The beginning of a quoted attribute value with a placeholder, from the equals sign on. -/
def valueMark : Text := valueQuote ++ ['\x7b']

/-- Whether a character stands neither in a gap nor around a literal, nor behind a value. -/
def isInner (character : Char) : Bool :=
  !isGap character && !"\",:]\x7d".toList.contains character

variable {next : Char}

/-- The mark has only its first two characters and the next one. -/
theorem not_mem_quote_mark (hnext : isInner next = true) {character : Char} (hequals : character ≠ '=')
    (hquote : character ≠ '"') (houter : isInner character = false) : character ∉ quoteMark next := by
  have hne : character ≠ next := fun heq ↦ by simp [heq, hnext] at houter
  simp [quoteMark, valueQuote, hequals, hquote, hne]

/-- A character that is no hexadecimal digit is none of the digits of an escape by a code unit. -/
theorem not_mem_of_unit {character first second third fourth : Char} {unit : Nat}
    (hnone : Text.hexDigitValue? character = none) (h : unit? first second third fourth = some unit) :
    character ∉ [first, second, third, fourth] := by
  have hdigit {digit : Char} {value : Nat} (hvalue : Text.hexDigitValue? digit = some value) :
      character ≠ digit := by
    rintro rfl
    exact absurd (hnone.symm.trans hvalue) (by simp)
  simp only [unit?, bind, Option.bind_eq_some_iff] at h
  obtain ⟨_, hfirst, _, hsecond, _, hthird, _, hfourth, -⟩ := h
  simp [hdigit hfirst, hdigit hsecond, hdigit hthird, hdigit hfourth]

/-- In front of a character other than a quote there may be anything. -/
theorem value_quote_cons {character : Char} {text : Text} (hhead : text.head? ≠ some '"') :
    valueQuote <:+: character :: text ↔ valueQuote <:+: text := by
  rw [List.infix_cons_iff, or_iff_right]
  intro hprefix
  obtain ⟨-, hrest⟩ := List.cons_prefix_cons.mp hprefix
  obtain ⟨others, hothers⟩ := hrest
  exact hhead (by rw [← hothers]; rfl)

/-- Inside a string literal a quote stands only behind a backslash. -/
theorem Encodes.quotes {content : Text} {units : List Nat} (h : Encodes content units) :
    content.head? ≠ some '"' ∧ ¬ valueQuote <:+: content := by
  induction h with
  | nil => exact ⟨by simp, by decide⟩
  | @unit first second third fourth unit content units hunit _ ih =>
      have hdigits := not_mem_of_unit (show Text.hexDigitValue? '"' = none by decide) hunit
      simp only [List.mem_cons, List.not_mem_nil, or_false, not_or] at hdigits
      obtain ⟨hfirst, hsecond, hthird, hfourth⟩ := hdigits
      refine ⟨by simp, ?_⟩
      rw [value_quote_cons (by simp), value_quote_cons (by simpa [eq_comm] using hfirst),
        value_quote_cons (by simpa [eq_comm] using hsecond),
        value_quote_cons (by simpa [eq_comm] using hthird),
        value_quote_cons (by simpa [eq_comm] using hfourth), value_quote_cons ih.1]
      exact ih.2
  | escape _ _ _ ih =>
      refine ⟨by simp, fun hpiece ↦ ?_⟩
      rcases List.infix_cons_iff.mp hpiece with hprefix | hpiece
      · exact absurd (List.cons_prefix_cons.mp hprefix).1 (by decide)
      · exact ih.2 ((value_quote_cons ih.1).mp hpiece)
  | plain hquote _ _ _ ih =>
      refine ⟨fun hfound ↦ hquote (Option.some.inj hfound), ?_⟩
      rw [value_quote_cons ih.1]
      exact ih.2

/-- A string literal has no such mark. -/
theorem IsContent.no_quote_mark (hnext : isInner next = true) {content text : Text}
    (h : IsContent content text) : ¬ quoteMark next <:+: '"' :: (content ++ ['"']) := by
  obtain ⟨units, hencodes, -⟩ := h.encodes
  have hquotes := hencodes.quotes.2
  rw [List.infix_cons_iff, not_or]
  refine ⟨fun hprefix ↦ absurd (List.cons_prefix_cons.mp hprefix).1 (by decide), fun hpiece ↦ ?_⟩
  obtain ⟨front, back, hsplit⟩ := hpiece
  rcases List.eq_nil_or_concat back with rfl | ⟨others, last, rfl⟩
  · have hlast := congrArg List.getLast? hsplit
    obtain rfl : next = '"' := by simpa [quoteMark] using hlast
    exact absurd hnext (by decide)
  · have hcontent : front ++ quoteMark next ++ others = content := by
      have hsame : front ++ quoteMark next ++ others ++ [last] = content ++ ['"'] := by
        rw [← hsplit]
        simp
      exact (List.append_inj' hsame rfl).1
    exact hquotes ⟨front, next :: others, by rw [← hcontent]; simp [quoteMark]⟩

end Literals

section Documents

variable {front back gap : Text} {next : Char}

/-- A gap has no characters of the mark. -/
theorem IsGap.not_mem_quote_mark (hgap : IsGap gap) (hnext : isInner next = true) :
    ∀ character ∈ gap, character ∉ quoteMark next := by
  intro character hmem
  have houter : isInner character = false := by simp [isInner, hgap character hmem]
  refine Json.not_mem_quote_mark hnext ?_ ?_ houter
  · rintro rfl
    exact absurd (hgap _ hmem) (by decide)
  · rintro rfl
    exact absurd (hgap _ hmem) (by decide)

theorem IsGap.ne_equals (hgap : IsGap gap) : ∀ character ∈ gap, character ≠ '=' := by
  rintro character hmem rfl
  exact absurd (hgap _ hmem) (by decide)

/-- A piece without equals signs may stand in front. -/
theorem no_quote_mark_behind (hfront : ∀ character ∈ front, character ≠ '=')
    (hback : ¬ quoteMark next <:+: back) : ¬ quoteMark next <:+: front ++ back :=
  fun h ↦ hback ((Text.infix_append_iff fun hmem ↦ hfront '=' hmem rfl).mp h)

/-- The mark does not go across a delimiter with a gap in front. -/
theorem no_quote_mark_join {delimiter : Char} (hdelimiter : delimiter ∉ quoteMark next) (hgap : IsGap gap)
    (hnext : isInner next = true) (hfront : ¬ quoteMark next <:+: front)
    (hback : ¬ quoteMark next <:+: back) : ¬ quoteMark next <:+: front ++ (gap ++ delimiter :: back) := by
  have hforeign := hgap.not_mem_quote_mark hnext
  have hequals := hgap.ne_equals
  cases gap with
  | nil =>
      rw [List.nil_append, Text.infix_append_cons_iff hdelimiter]
      exact not_or.mpr ⟨hfront, hback⟩
  | cons first gap =>
      obtain ⟨hfirst, -⟩ := List.forall_mem_cons.mp hforeign
      obtain ⟨-, hothers⟩ := List.forall_mem_cons.mp hequals
      rw [List.cons_append, Text.infix_append_cons_iff hfirst, not_or]
      refine ⟨hfront, no_quote_mark_behind hothers ?_⟩
      have hone : ∀ character ∈ [delimiter], character ≠ '=' := fun _ hmem heq ↦
        hdelimiter (by rw [← List.mem_singleton.mp hmem, heq]; exact List.mem_cons_self ..)
      exact no_quote_mark_behind hone hback

/-- In what is spelled without open strings no such mark stands. -/
theorem Spells.no_quote_mark (hnext : isInner next = true) {part : Part Unit} {cuts : Cuts Unit}
    (h : Spells (fun _ ↦ False) part cuts) : ¬ quoteMark next <:+: cuts.text fun _ ↦ [] := by
  have hshort (text : Text) (hlength : text.length < 3) : ¬ quoteMark next <:+: text :=
    fun hpiece ↦ absurd hpiece.length_le (by simpa [quoteMark, valueQuote] using hlength)
  have hopened {opening : Char} {gap : Text} (hopening : opening ≠ '=') (hblank : IsGap gap) :
      ∀ character ∈ opening :: gap, character ≠ '=' :=
    List.forall_mem_cons.mpr ⟨hopening, hblank.ne_equals⟩
  -- What closes a value or comes behind it is no character of the mark.
  have hcomma : ',' ∉ quoteMark next := not_mem_quote_mark hnext (by decide) (by decide) (by decide)
  have hcolon : ':' ∉ quoteMark next := not_mem_quote_mark hnext (by decide) (by decide) (by decide)
  have hbracket : ']' ∉ quoteMark next := not_mem_quote_mark hnext (by decide) (by decide) (by decide)
  have hbrace : '\x7d' ∉ quoteMark next := not_mem_quote_mark hnext (by decide) (by decide) (by decide)
  induction h with
  | @atom text value h =>
      intro hpiece
      have hquote : '"' ∈ quoteMark next := by simp [quoteMark, valueQuote]
      exact absurd (h.plain '"' (by simpa using hpiece.subset hquote)) (by decide)
  | string h => simpa using h.no_quote_mark hnext
  | hole h => exact absurd h id
  | @emptyArray gap hblank =>
      simpa using no_quote_mark_join hbracket hblank hnext (hshort ['['] (by decide))
        (hshort [] (by decide))
  | @array gap items cuts hblank h ih =>
      simpa using no_quote_mark_behind (hopened (show '[' ≠ '=' by decide) hblank) ih
  | @emptyObject gap hblank =>
      simpa using no_quote_mark_join hbrace hblank hnext (hshort ['\x7b'] (by decide))
        (hshort [] (by decide))
  | @object gap members cuts hblank h ih =>
      simpa using no_quote_mark_behind (hopened (show '\x7b' ≠ '=' by decide) hblank) ih
  | @lastItem item cuts gap h hblank ih =>
      simpa using no_quote_mark_join hbracket hblank hnext ih (hshort [] (by decide))
  | @item item items cuts others before after h hbefore hafter hothers ih ihOthers =>
      simpa using no_quote_mark_join hcomma hbefore hnext ih
        (no_quote_mark_behind hafter.ne_equals ihOthers)
  | @lastMember content name before after gap value cuts hname hbefore hafter h hblank ih =>
      have hvalue := no_quote_mark_join hbrace hblank hnext ih (hshort [] (by decide))
      simpa using no_quote_mark_join hcolon hbefore hnext (hname.no_quote_mark hnext)
        (no_quote_mark_behind hafter.ne_equals hvalue)
  | @member content name before after behind next value members cuts others hname hbefore hafter h
      hbehind hblank hothers ih ihOthers =>
      have hvalue := no_quote_mark_join hcomma hbehind hnext ih
        (no_quote_mark_behind hblank.ne_equals ihOthers)
      simpa using no_quote_mark_join hcolon hbefore hnext (hname.no_quote_mark hnext)
        (no_quote_mark_behind hafter.ne_equals hvalue)

/-- In a text that is read as a value no quote stands behind an equals sign and before a character that does
not go on behind a literal. -/
theorem parse_no_quote_mark (hnext : isInner next = true) {text : Text} {value : Json}
    (h : parse text = .ok value) : ¬ quoteMark next <:+: text := by
  obtain ⟨shape, before, after, inner, hbefore, hafter, hspells, -, htext⟩ := spells_of_parse h
  rw [htext]
  refine no_quote_mark_behind hbefore.ne_equals fun hpiece ↦ hspells.no_quote_mark hnext ?_
  cases after with
  | nil => simpa using hpiece
  | cons first after =>
      obtain ⟨hfirst, -⟩ := List.forall_mem_cons.mp (hafter.not_mem_quote_mark hnext)
      rw [Text.infix_append_cons_iff hfirst] at hpiece
      refine hpiece.resolve_right fun hbehind ↦ ?_
      have hequals : '=' ∈ quoteMark next := List.mem_cons_self ..
      exact hafter.ne_equals '=' (List.mem_cons_of_mem _ (hbehind.subset hequals)) rfl

/-- In a text that is read as a value no quote stands behind an equals sign and before a brace. -/
theorem parse_no_value_mark {text : Text} {value : Json} (h : parse text = .ok value) :
    ¬ valueMark <:+: text :=
  parse_no_quote_mark (show isInner '\x7b' = true by decide) h

end Documents

end LocalizedSite.Json
