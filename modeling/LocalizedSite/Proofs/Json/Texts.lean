import LocalizedSite.Dictionary.Basic
import LocalizedSite.Proofs.Json.Quotes

/-!
# JSON texts of a mapping

`SpellsTexts` says which JSON texts a mapping from texts to texts has: blanks may stand between its parts,
and every character of a name or of a value stands as it is or by any of its escapes. Each of them is read
as the mapping (`SpellsTexts.parse`), and the one that is written for it is among them
(`spells_texts_render`). A run of backticks stands in such a text only inside a name or a value
(`SpellsTexts.run_infix`).
-/

namespace LocalizedSite.Json

open Dictionary

/-- What may stand for a character in a string literal: the character, the letter of an escape, a code
unit, or a pair of surrogates. -/
inductive SpellsCharacter : Char → Text → Prop
  | plain {character : Char} (hquote : character ≠ '"') (hslash : character ≠ '\\')
      (hcontrol : ¬ character.toNat < 32) : SpellsCharacter character [character]
  | letter {letter character : Char} (h : simpleEscape? letter = some character) :
      SpellsCharacter character ['\\', letter]
  | unit {first second third fourth character : Char}
      (h : unit? first second third fourth = some character.toNat) :
      SpellsCharacter character ['\\', 'u', first, second, third, fourth]
  | pair {first second third fourth fifth sixth seventh eighth : Char} {high low : Nat}
      (hhigh : unit? first second third fourth = some high) (hfirst : isHighSurrogate high = true)
      (hlow : unit? fifth sixth seventh eighth = some low) (hsecond : isLowSurrogate low = true) :
      SpellsCharacter (joinSurrogates high low)
        ['\\', 'u', first, second, third, fourth, '\\', 'u', fifth, sixth, seventh, eighth]

/-- What may stand for a text between the quotes of a string literal. -/
inductive SpellsText : Text → Text → Prop
  | nil : SpellsText [] []
  | cons {character : Char} {spelling text content : Text} (hcharacter : SpellsCharacter character spelling)
      (h : SpellsText text content) : SpellsText (character :: text) (spelling ++ content)

/-- A string literal with a content. -/
def literal (content : Text) : Text :=
  '"' :: (content ++ ['"'])

/-- What may stand for an entry. -/
inductive SpellsEntry : Text × Text → Text → Prop
  | intro {name text named content before after : Text} (hname : SpellsText name named)
      (hbefore : IsGap before) (hafter : IsGap after) (htext : SpellsText text content) :
      SpellsEntry (name, text) (literal named ++ (before ++ ':' :: (after ++ literal content)))

/-- What may stand for the entries of a mapping, with the closing brace. -/
inductive SpellsEntries : Entries Text → Text → Prop
  | last {entry : Text × Text} {text gap : Text} (h : SpellsEntry entry text) (hgap : IsGap gap) :
      SpellsEntries [entry] (text ++ (gap ++ ['\x7d']))
  | more {entry : Text × Text} {entries : Entries Text} {text before after others : Text}
      (h : SpellsEntry entry text) (hbefore : IsGap before) (hafter : IsGap after)
      (hothers : SpellsEntries entries others) :
      SpellsEntries (entry :: entries) (text ++ (before ++ ',' :: (after ++ others)))

/-- The JSON texts of a mapping. -/
inductive SpellsTexts : Entries Text → Text → Prop
  | empty {gap : Text} (hgap : IsGap gap) : SpellsTexts [] ('\x7b' :: (gap ++ ['\x7d']))
  | object {entries : Entries Text} {gap text : Text} (hgap : IsGap gap) (h : SpellsEntries entries text) :
      SpellsTexts entries ('\x7b' :: (gap ++ text))

section Reading

/-- The code unit of a character is settled as the character, since it is no half of a pair. -/
theorem settle_units_cons (character : Char) (later : Text) (earlier : List Nat) :
    settleUnits later (character.toNat :: earlier) = settleUnits (character :: later) earlier := by
  cases earlier with
  | nil =>
      show [unitCharacter character.toNat] ++ later = _
      rw [unit_character]
      rfl
  | cons before earlier =>
      rw [settleUnits, (character_no_surrogate character).2, Bool.false_and, if_neg (by decide),
        unit_character]

/-- What stands for a character is read as code units that are settled as the character. -/
theorem SpellsCharacter.reads {character : Char} {spelling : Text}
    (h : SpellsCharacter character spelling) : ∃ units,
      (∀ (opening : Text) (done : List Nat) {rest : Text}, rest ≠ [] →
        readString opening done (spelling ++ rest) = readString opening (units ++ done) rest) ∧
      ∀ later earlier, settleUnits later (units ++ earlier) = settleUnits (character :: later) earlier := by
  cases h with
  | plain hquote hslash hcontrol =>
      exact ⟨[character.toNat], fun opening done rest _ ↦
        read_string_plain opening done hquote hslash hcontrol rest, settle_units_cons character⟩
  | @letter letter _ h =>
      have hnone : simpleEscape? 'u' = none := rfl
      have hletter : letter ≠ 'u' := by
        rintro rfl
        exact absurd (hnone.symm.trans h) (by simp)
      exact ⟨[character.toNat], fun opening done rest _ ↦
        read_string_simple opening done hletter h rest, settle_units_cons character⟩
  | unit h =>
      exact ⟨[character.toNat], fun opening done rest hrest ↦ read_string_unit opening done h hrest,
        settle_units_cons character⟩
  | @pair _ _ _ _ _ _ _ _ high low hhigh hfirst hlow hsecond =>
      refine ⟨[low, high], fun opening done rest hrest ↦ ?_, fun later earlier ↦ ?_⟩
      · exact (read_string_unit opening done hhigh (by simp)).trans
          (read_string_unit opening (high :: done) hlow hrest)
      · show settleUnits later (low :: high :: earlier) = _
        rw [settleUnits, hsecond, hfirst, Bool.and_self, if_pos rfl]

/-- What stands for a text is read as the text, up to the closing quote. -/
theorem SpellsText.reads {text content : Text} (h : SpellsText text content) (opening rest : Text)
    (done : List Nat) : readString opening done (content ++ '"' :: rest) =
      .ok (settleUnits text done, rest) := by
  induction h generalizing done with
  | nil => rfl
  | cons hcharacter _ ih =>
      obtain ⟨units, hread, hsettle⟩ := hcharacter.reads
      rw [List.append_assoc, hread opening done (by simp), ih, hsettle]

theorem SpellsText.is_content {text content : Text} (h : SpellsText text content) :
    IsContent content text :=
  fun opening rest ↦ h.reads opening rest []

/-- The shape of the members of a mapping, in which nothing is left open. -/
def closedMembers (entries : Entries Text) : List (Text × Shape Unit) :=
  entries.map fun (name, text) ↦ (name, .atom (.string text))

/-- The members of a mapping are spelled. -/
theorem SpellsEntries.spells {entries : Entries Text} {text : Text} (h : SpellsEntries entries text) :
    Spells (fun _ ↦ False) (.members (closedMembers entries)) (.plain text) := by
  induction h with
  | last h hgap =>
      cases h with
      | intro hname hbefore hafter htext =>
          have hvalue : Spells (fun _ : Unit ↦ False) _ _ := .string htext.is_content
          have hspells := Spells.lastMember hname.is_content hbefore hafter hvalue hgap
          simpa [Cuts.plain_append_plain, literal, closedMembers] using hspells
  | more h hbehind hnext _ ih =>
      cases h with
      | intro hname hbefore hafter htext =>
          have hvalue : Spells (fun _ : Unit ↦ False) _ _ := .string htext.is_content
          have hspells := Spells.member hname.is_content hbefore hafter hvalue hbehind hnext ih
          simpa [Cuts.plain_append_plain, literal, closedMembers] using hspells

/-- The members of a mapping are its entries. -/
theorem fill_closed_members (texts : Unit → Text) (entries : Entries Text) :
    fillMembers texts (closedMembers entries) = Entries.mapValues .string entries := by
  induction entries with
  | nil => rfl
  | cons entry entries ih =>
      show (entry.1, _) :: fillMembers texts (closedMembers entries) = _
      rw [ih]
      rfl

/-- A text of a mapping is a JSON text. -/
theorem SpellsTexts.spells {texts : Entries Text} {text : Text} (h : SpellsTexts texts text) :
    Spells (fun _ ↦ False) (.value (.object (closedMembers texts))) (.plain text) := by
  cases h with
  | empty hgap => exact .emptyObject hgap
  | object hgap h => simpa [Cuts.plain_append_plain] using Spells.object hgap h.spells

/-- A text of a mapping is read as the mapping. -/
theorem SpellsTexts.parse {texts : Entries Text} {text : Text} (h : SpellsTexts texts text)
    (hnames : texts.names.Nodup) : Json.parse text = .ok (ofTexts texts) := by
  have hmembers : (Entries.mapValues Json.string texts).names.Nodup := by
    simpa [Entries.names, Entries.mapValues, Function.comp_def] using hnames
  have hdocument : Document (fun _ ↦ False) (.object (closedMembers texts)) (.plain text) :=
    ⟨[], .plain text, [], by simp [IsGap], by simp [IsGap], h.spells, by simp [Cuts.plain_append_plain]⟩
  have hparsed : Json.parse (Cuts.text (fun _ : Unit ↦ []) (.plain text)) =
      .ok (Shape.fill (fun _ ↦ []) (.object (closedMembers texts))) :=
    hdocument.parse_text fun _ hnever ↦ False.elim hnever
  rwa [Cuts.text_plain, Shape.fill, fill_closed_members, Entries.of_list_eq hmembers] at hparsed

/-- A text of a mapping stands between braces. -/
theorem SpellsTexts.braces {texts : Entries Text} {text : Text} (h : SpellsTexts texts text) :
    ∃ inner, text = '\x7b' :: (inner ++ ['\x7d']) := by
  have hentries {entries : Entries Text} {text : Text} (h : SpellsEntries entries text) :
      ∃ inner, text = inner ++ ['\x7d'] := by
    induction h with
    | @last entry text gap h hgap => exact ⟨text ++ gap, by simp⟩
    | @more entry entries text before after others h hbefore hafter hothers ih =>
        obtain ⟨inner, rfl⟩ := ih
        exact ⟨text ++ (before ++ ',' :: (after ++ inner)), by simp⟩
  cases h with
  | @empty gap hgap => exact ⟨gap, rfl⟩
  | @object entries gap text hgap h =>
      obtain ⟨inner, rfl⟩ := hentries h
      exact ⟨gap ++ inner, by simp⟩

end Reading

section Writing

/-- What is written for a character may stand for it. -/
theorem spells_character_escape (character : Char) :
    SpellsCharacter character (escapeCharacter character) := by
  unfold escapeCharacter
  split_ifs with hquote hslash hline hreturn htab hfeed hback hcontrol
  · exact hquote ▸ .letter rfl
  · exact hslash ▸ .letter rfl
  · exact hline ▸ .letter rfl
  · exact hreturn ▸ .letter rfl
  · exact htab ▸ .letter rfl
  · exact hfeed ▸ .letter rfl
  · exact hback ▸ .letter rfl
  · obtain ⟨first, second, third, fourth, hdigits, hunit⟩ := control_unit hcontrol
    rw [hdigits]
    exact .unit hunit
  · exact .plain hquote hslash hcontrol

/-- What is written for a text may stand for it. -/
theorem spells_text_escape (text : Text) : SpellsText text (escape text) := by
  induction text with
  | nil => exact .nil
  | cons character text ih => exact .cons (spells_character_escape character) ih

/-- What is written for the entries of a mapping may stand for them. -/
theorem spells_entries_render (indent width : Nat) {gap : Text} (hgap : IsGap gap) (entry : Text × Text)
    (entries : Entries Text) :
    SpellsEntries (entry :: entries)
      (Text.joinWith (',' :: newLine width)
        (renderMembers indent width (Entries.mapValues .string (entry :: entries))) ++
          (gap ++ ['\x7d'])) := by
  have hentry (entry : Text × Text) : SpellsEntry entry
      (quote entry.1 ++ ": ".toList ++ renderAt indent width (.string entry.2)) := by
    have hspells : SpellsEntry entry (literal (escape entry.1) ++
        ([] ++ ':' :: ([' '] ++ literal (escape entry.2)))) :=
      .intro (spells_text_escape _) (by simp [IsGap]) (by simp [IsGap, isGap]) (spells_text_escape _)
    simpa [literal, quote, renderAt] using hspells
  induction entries generalizing entry with
  | nil =>
      simpa [Entries.mapValues, render_members_cons, renderMembers] using
        SpellsEntries.last (hentry entry) hgap
  | cons second entries ih =>
      have hspells : SpellsEntries (entry :: second :: entries) (_ ++ ([] ++ ',' :: (newLine width ++ _))) :=
        .more (hentry entry) (by simp [IsGap]) (is_gap_line width) (ih second)
      simpa [Entries.mapValues, render_members_cons, Text.join_with_cons_cons] using hspells

/-- The text that is written for a mapping is a text of it. -/
theorem spells_texts_render (indent : Nat) (texts : Entries Text) :
    SpellsTexts texts (render indent (ofTexts texts)) := by
  cases texts with
  | nil =>
      have hgap : IsGap [] := by simp [IsGap]
      exact .empty hgap
  | cons entry entries =>
      have hentries := spells_entries_render indent (0 + indent) (is_gap_line 0) entry entries
      have hspells := SpellsTexts.object (is_gap_line (0 + indent)) hentries
      simpa [render, ofTexts, renderAt, block, Entries.mapValues, render_members_cons] using hspells

end Writing

section Runs

variable {count : Nat}

/-- A backtick stands for itself, and for no other character. -/
theorem SpellsCharacter.backtick {character : Char} {spelling : Text}
    (h : SpellsCharacter character spelling) :
    character = '`' ∧ spelling = ['`'] ∨ spelling ≠ [] ∧ '`' ∉ spelling := by
  have hnone : Text.hexDigitValue? '`' = none := by decide
  cases h with
  | plain hquote hslash hcontrol =>
      by_cases heq : character = '`'
      · exact .inl ⟨heq, by rw [heq]⟩
      · exact .inr ⟨by simp, by simpa using Ne.symm heq⟩
  | @letter letter _ h =>
      have hescape : simpleEscape? '`' = none := rfl
      have hletter : '`' ≠ letter := by
        rintro rfl
        exact absurd (hescape.symm.trans h) (by simp)
      exact .inr ⟨by simp, by simpa using hletter⟩
  | unit h => exact .inr ⟨by simp, by simpa using not_mem_of_unit hnone h⟩
  | pair hhigh _ hlow _ =>
      have hdigits := not_mem_of_unit hnone hhigh
      have hothers := not_mem_of_unit hnone hlow
      simp only [List.mem_cons, List.not_mem_nil, or_false, not_or] at hdigits hothers
      exact .inr ⟨by simp, by simp [hdigits, hothers]⟩

/-- A run of backticks at the beginning of a content stands at the beginning of the text. -/
theorem SpellsText.run_prefix {text content : Text} (h : SpellsText text content)
    (hrun : List.replicate count '`' <+: content) : List.replicate count '`' <+: text := by
  induction count generalizing text content with
  | zero => exact List.nil_prefix
  | succ count ih =>
      rw [List.replicate_succ] at hrun ⊢
      cases h with
      | nil => exact absurd (List.prefix_nil.mp hrun) (by simp)
      | @cons character spelling text content hcharacter h =>
          rcases hcharacter.backtick with ⟨rfl, rfl⟩ | ⟨hne, hnone⟩
          · exact List.cons_prefix_cons.mpr ⟨rfl, ih h (List.cons_prefix_cons.mp hrun).2⟩
          · obtain ⟨first, others, rfl⟩ := List.exists_cons_of_ne_nil hne
            refine absurd ?_ hnone
            rw [(List.cons_prefix_cons.mp hrun).1]
            exact List.mem_cons_self ..

/-- A run of backticks in a content stands in the text. -/
theorem SpellsText.run_infix {text content : Text} (h : SpellsText text content)
    (hrun : List.replicate count '`' <:+: content) : List.replicate count '`' <:+: text := by
  cases count with
  | zero => exact List.nil_infix
  | succ count =>
      induction h with
      | nil => exact hrun
      | @cons character spelling text content hcharacter h ih =>
          rcases hcharacter.backtick with ⟨rfl, rfl⟩ | ⟨-, hnone⟩
          · rcases List.infix_cons_iff.mp hrun with hprefix | hinfix
            · exact (SpellsText.run_prefix (.cons hcharacter h) hprefix).isInfix
            · exact List.infix_cons (ih hinfix)
          · rw [List.replicate_succ, Text.infix_append_iff hnone, ← List.replicate_succ] at hrun
            exact List.infix_cons (ih hrun)

theorem IsGap.no_backtick {gap : Text} (h : IsGap gap) : '`' ∉ gap :=
  fun hmem ↦ absurd (h '`' hmem) (by decide)

/-- A run of backticks stands on one side of what has no backtick. -/
theorem run_split {front middle back : Text} (hcount : 0 < count) (hmiddle : middle ≠ [])
    (hnone : '`' ∉ middle) : List.replicate count '`' <:+: front ++ (middle ++ back) ↔
      List.replicate count '`' <:+: front ∨ List.replicate count '`' <:+: back := by
  refine Text.infix_append_foreign_iff (by simpa using Nat.ne_of_gt hcount) hmiddle ?_
  intro character hmem hrun
  rw [List.eq_of_mem_replicate hrun] at hmem
  exact hnone hmem

/-- No run of backticks stands in a text without one. -/
theorem no_run {text : Text} (hcount : 0 < count) (hnone : '`' ∉ text) :
    ¬ List.replicate count '`' <:+: text :=
  fun hrun ↦ hnone (hrun.subset (List.mem_replicate.mpr ⟨Nat.ne_of_gt hcount, rfl⟩))

/-- A run of backticks in what stands for an entry stands in its name or in its text. -/
theorem SpellsEntry.run_infix {entry : Text × Text} {text : Text} (h : SpellsEntry entry text)
    (hcount : 0 < count) (hrun : List.replicate count '`' <:+: text) :
    List.replicate count '`' <:+: entry.1 ∨ List.replicate count '`' <:+: entry.2 := by
  cases h with
  | @intro name text named content before after hname hbefore hafter htext =>
      have hwhole : literal named ++ (before ++ ':' :: (after ++ literal content)) =
          [] ++ (['"'] ++ (named ++ (('"' :: (before ++ ':' :: (after ++ ['"']))) ++
            (content ++ (['"'] ++ []))))) := by
        simp [literal]
      rw [hwhole, run_split hcount (by simp) (by simp),
        run_split hcount (by simp) (by simp [hbefore.no_backtick, hafter.no_backtick]),
        run_split hcount (by simp) (by simp)] at hrun
      have hnothing : ¬ List.replicate count '`' <:+: [] := no_run hcount List.not_mem_nil
      rcases hrun with hnone | hnamed | hcontent | hnone
      · exact absurd hnone hnothing
      · exact .inl (hname.run_infix hnamed)
      · exact .inr (htext.run_infix hcontent)
      · exact absurd hnone hnothing

/-- A run of backticks in what stands for entries stands in a name or in a text. -/
theorem SpellsEntries.run_infix {entries : Entries Text} {text : Text} (h : SpellsEntries entries text)
    (hcount : 0 < count) (hrun : List.replicate count '`' <:+: text) :
    ∃ entry ∈ entries,
      List.replicate count '`' <:+: entry.1 ∨ List.replicate count '`' <:+: entry.2 := by
  induction h with
  | @last entry text gap h hgap =>
      have hclosing : text ++ (gap ++ ['\x7d']) = text ++ ((gap ++ ['\x7d']) ++ []) := by simp
      rw [hclosing, run_split hcount (by simp) (by simp [hgap.no_backtick])] at hrun
      have hentry := hrun.resolve_right (no_run hcount List.not_mem_nil)
      exact ⟨entry, List.mem_cons_self .., h.run_infix hcount hentry⟩
  | @more entry entries text before after others h hbefore hafter hothers ih =>
      have hcomma : text ++ (before ++ ',' :: (after ++ others)) =
          text ++ ((before ++ ',' :: after) ++ others) := by simp
      rw [hcomma, run_split hcount (by simp) (by simp [hbefore.no_backtick, hafter.no_backtick])] at hrun
      rcases hrun with hentry | hlater
      · exact ⟨entry, List.mem_cons_self .., h.run_infix hcount hentry⟩
      · obtain ⟨found, hmem, hfound⟩ := ih hlater
        exact ⟨found, List.mem_cons_of_mem _ hmem, hfound⟩

/-- A run of backticks in a text of a mapping stands in a name or in a value. -/
theorem SpellsTexts.run_infix {texts : Entries Text} {text : Text} (h : SpellsTexts texts text)
    (hcount : 0 < count) (hrun : List.replicate count '`' <:+: text) :
    ∃ entry ∈ texts, List.replicate count '`' <:+: entry.1 ∨ List.replicate count '`' <:+: entry.2 := by
  cases h with
  | @empty gap hgap => exact absurd hrun (no_run hcount (by simp [hgap.no_backtick]))
  | @object entries gap text hgap h =>
      have hopening : '\x7b' :: (gap ++ text) = [] ++ (('\x7b' :: gap) ++ text) := by simp
      rw [hopening, run_split hcount (by simp) (by simp [hgap.no_backtick])] at hrun
      exact h.run_infix hcount (hrun.resolve_left (no_run hcount List.not_mem_nil))

end Runs

end LocalizedSite.Json
