import LocalizedSite.Proofs.Html.Entity
import LocalizedSite.Proofs.Html.Reading

/-!
# Tags that close, and escaped text

An element may be closed within its tag or by an end tag of its own. A tag that closes its element and whose
attributes are all quoted is read as what it says (`reads_empty_tag`), an end tag as its name
(`reads_end_tag`), and an escaped text as runs and references that together are the text
(`reads_escaped`).
-/

namespace LocalizedSite.Html

variable {references : References} {rest : Text}

section EmptyTag

/-- The characters of a start tag that closes its element. -/
def emptyTagText (name : Text) (attributes : List WrittenAttribute) : Text :=
  '<' :: (name ++ (attributesText attributes ++ "/>".toList))

/-- An attribute whose value stands between quotation marks. -/
structure IsQuoted (written : WrittenAttribute) : Prop extends written.IsWellFormed where
  quoted : ∃ mark content, written.value = .quoted mark content

/-- A quoted attribute is read with the gap behind it, whatever follows. -/
theorem read_attribute_quoted {written : WrittenAttribute} (hwritten : IsQuoted written)
    {following gap : Text} (hgap : readGap [] following = (gap, rest)) {previous : Char}
    (hprevious : precedesAttribute previous = true) (fuel : Nat) (done : List Attribute)
    (sources : List Text) :
    ∃ source, readAttributes (fuel + 1) previous done sources (written.body ++ following) =
      readAttributes fuel ((source ++ gap).getLast?.getD previous) (written.meant :: done)
        ((source ++ gap) :: sources) rest := by
  obtain ⟨mark, content, hvalue⟩ := hwritten.quoted
  have hwell := hwritten.value_well_formed
  rw [hvalue] at hwell
  obtain ⟨source, hread⟩ := read_value_quoted hwell.1 hwell.2 following
  have htext : written.body ++ following =
      written.name ++ '=' :: mark :: (content ++ mark :: following) := by
    simp [WrittenAttribute.body, hvalue, WrittenValue.text]
  have hends : ∀ character, ('=' :: mark :: (content ++ mark :: following)).head? = some character →
      isAttributeCharacter character = false := by
    intro character hhead
    obtain rfl := Option.some.inj hhead
    decide
  have hmeant : written.value.value = some (Entity.decode content) := by rw [hvalue, WrittenValue.value]
  rw [htext]
  exact ⟨_, read_attributes_name hwritten.toIsWellFormed hends (.inr ⟨content, hread, hmeant⟩) hgap
    hprevious fuel done sources⟩

/-- What stands behind the blanks before attributes in a tag that closes its element. -/
def emptyTagEnd (attributes : List WrittenAttribute) (rest : Text) : Text :=
  match attributes with
  | [] => '/' :: '>' :: rest
  | written :: others => written.body ++ (attributesText others ++ '/' :: '>' :: rest)

/-- The blanks before attributes are a gap. -/
theorem read_gap_empty_tag {attributes : List WrittenAttribute}
    (hattributes : ∀ written ∈ attributes, IsQuoted written) (rest : Text) :
    readGap [] (attributesText attributes ++ '/' :: '>' :: rest) =
      (leadingGap attributes [], emptyTagEnd attributes rest) := by
  cases attributes with
  | nil => rfl
  | cons written others =>
      have hwritten := hattributes written (List.mem_cons_self ..)
      obtain ⟨first, name, hname, ⟨hblank, hslash, -, -⟩, -⟩ := hwritten.name_cons
      have hread := read_gap_append [] (name ++ written.value.text ++
        (attributesText others ++ '/' :: '>' :: rest)) hwritten.blanks_blank hblank hslash
      simpa [attributesText, WrittenAttribute.text, WrittenAttribute.body, hname, leadingGap, emptyTagEnd]
        using hread

/-- All attributes of a tag that closes its element are read, up to the end of the tag. -/
theorem read_attributes_empty_tag {attributes : List WrittenAttribute}
    (hattributes : ∀ written ∈ attributes, IsQuoted written) (rest : Text) {previous : Char}
    (hprevious : attributes ≠ [] → precedesAttribute previous = true) {fuel : Nat}
    (hfuel : attributes.length ≤ fuel) (done : List Attribute) (sources : List Text) :
    ∃ read, readAttributes fuel previous done sources (emptyTagEnd attributes rest) =
      ((attributes.map WrittenAttribute.meant).reverse ++ done, read, '/' :: '>' :: rest) := by
  induction attributes generalizing previous fuel done sources with
  | nil =>
      refine ⟨sources, ?_⟩
      cases fuel with
      | zero => rfl
      | succ fuel => simp [emptyTagEnd, readAttributes]
  | cons written others ih =>
      obtain ⟨less, rfl⟩ : ∃ less, fuel = less + 1 := ⟨fuel - 1, by
        simp only [List.length_cons] at hfuel
        omega⟩
      obtain ⟨hwritten, hothers⟩ := List.forall_mem_cons.mp hattributes
      obtain ⟨source, hread⟩ := read_attribute_quoted hwritten (read_gap_empty_tag hothers rest)
        (hprevious (by simp)) less done sources
      have hwell : ∀ found ∈ others, found.IsWellFormed := fun found hmem ↦ (hothers found hmem).toIsWellFormed
      obtain ⟨read, hrest⟩ := ih hothers (precedes_of_leading_gap hwell · [] source previous)
        (by simpa using hfuel) (written.meant :: done) ((source ++ leadingGap others []) :: sources)
      refine ⟨read, ?_⟩
      rw [emptyTagEnd, hread, hrest]
      simp

/-- A written tag that closes its element is read as what it says. -/
theorem reads_empty_tag {name : Text} (hname : IsTagName name) {attributes : List WrittenAttribute}
    (hattributes : ∀ written ∈ attributes, IsQuoted written) (rest : Text) :
    ∃ source, Reads references none (emptyTagText name attributes ++ rest)
      [⟨source, some (.start (Text.lower name) (attributes.map WrittenAttribute.meant) true)⟩]
      none rest := by
  have hwell : ∀ written ∈ attributes, written.IsWellFormed :=
    fun written hmem ↦ (hattributes written hmem).toIsWellFormed
  have htext : emptyTagText name attributes ++ rest =
      '<' :: (name ++ (attributesText attributes ++ '/' :: '>' :: rest)) := by
    simp [emptyTagText]
  have hends : ∀ character, (attributesText attributes ++ '/' :: '>' :: rest).head? = some character →
      endsTagName character = true := by
    intro character hhead
    cases attributes with
    | nil =>
        obtain rfl := Option.some.inj hhead
        decide
    | cons written others =>
        have hwritten := hwell written (List.mem_cons_self ..)
        obtain ⟨first, blanks, hblanks⟩ := List.exists_cons_of_ne_nil hwritten.blanks_ne_nil
        have hfirst := hwritten.blanks_blank first (by simp [hblanks])
        obtain rfl : first = character := by
          simpa [attributesText, WrittenAttribute.text, hblanks] using hhead
        simp only [isTagBlank, Bool.and_eq_true] at hfirst
        exact hfirst.1
  have hfuel : attributes.length ≤ (emptyTagEnd attributes rest).length := by
    cases attributes with
    | nil => exact Nat.zero_le _
    | cons written others => exact length_le_behind_gap hwell ['/'] rest
  obtain ⟨read, hread⟩ := read_attributes_empty_tag hattributes rest
    (precedes_of_leading_gap hwell · [] ('<' :: name) '<') hfuel [] ['<' :: name ++ leadingGap attributes []]
  rw [List.append_nil] at hread
  have htag := read_start_tag hname hends (read_gap_empty_tag hattributes rest) hread rfl (.inr ⟨rfl, rfl⟩)
  rw [List.reverse_reverse] at htag
  rw [htext]
  exact ⟨_, reads_construct htag rfl⟩

end EmptyTag

section EndTag

/-- The characters of an end tag. -/
def endTagText (name : Text) : Text :=
  "</".toList ++ name ++ ['>']

/-- A name that is read in a start tag and in an end tag. -/
structure IsElementName (name : Text) : Prop extends IsTagName name where
  lower : Text.lower name = name
  ends : plainEndName? name = some name
  plain : '>' ∉ name

/-- A written end tag is read as its name. -/
theorem reads_end_tag {name : Text} (hname : IsElementName name) (rest : Text) :
    ∃ source, Reads references none (endTagText name ++ rest) [⟨source, some (.finish name)⟩]
      none rest := by
  have htext : endTagText name ++ rest = '<' :: '/' :: (name ++ '>' :: rest) := by
    simp [endTagText]
  have hread : readConstruct ('<' :: '/' :: (name ++ '>' :: rest)) =
      .complete ⟨"</".toList ++ name ++ ['>'], some (.finish name)⟩ rest := by
    show readEndTag ('<' :: '/' :: (name ++ '>' :: rest)) = _
    unfold readEndTag endToken?
    simp only [List.drop_succ_cons, List.drop_zero, cut_at_character hname.plain rest, hname.ends,
      hname.lower]
  rw [htext]
  exact ⟨_, reads_construct hread rfl⟩

end EndTag

section Escaped

open Render

/-- Lexemes that are runs of text, together this text. -/
def AreText (lexemes : List Lexeme) (data : Text) : Prop :=
  ∃ pieces : List Text, lexemes.filterMap Lexeme.token = pieces.map Token.text ∧
    pieces.flatten = data ∧ [] ∉ pieces

/-- A run in front of others. -/
theorem AreText.cons {lexemes : List Lexeme} {source run data : Text} (h : AreText lexemes data)
    (hrun : run ≠ []) : AreText (⟨source, some (.text run)⟩ :: lexemes) (run ++ data) := by
  obtain ⟨pieces, htokens, hdata, hnone⟩ := h
  exact ⟨run :: pieces, by simp [htokens], by simp [hdata], by simp [hrun.symm, hnone]⟩

/-- What is written for a character is the character itself, or a reference that is read as it. -/
theorem escape_character_cases (character : Char) :
    (endsText .decoded character = false ∧ escapeMarkupCharacter character = [character]) ∨
      ∃ tail, escapeMarkupCharacter character = '&' :: tail ∧ ∀ rest, ∃ source,
        Reads .decoded none ('&' :: tail ++ rest) [⟨source, some (.text [character])⟩] none rest := by
  unfold escapeMarkupCharacter
  split_ifs with hand hless hgreater hsingle hdouble
  · exact .inr ⟨_, rfl, fun rest ↦ ⟨_, .step (by simp) (by rw [hand]; rfl) (.here none rest)⟩⟩
  · exact .inr ⟨_, rfl, fun rest ↦ ⟨_, .step (by simp) (by rw [hless]; rfl) (.here none rest)⟩⟩
  · exact .inr ⟨_, rfl, fun rest ↦ ⟨_, .step (by simp) (by rw [hgreater]; rfl) (.here none rest)⟩⟩
  · exact .inr ⟨_, rfl, fun rest ↦ ⟨_, .step (by simp) (by rw [hsingle]; rfl) (.here none rest)⟩⟩
  · exact .inr ⟨_, rfl, fun rest ↦ ⟨_, .step (by simp) (by rw [hdouble]; rfl) (.here none rest)⟩⟩
  · exact .inl ⟨by simp [endsText, hand, hless], rfl⟩

/-- An escaped text is read as runs and references that together are the text. The characters of a run that is
not yet over stand in front. -/
theorem reads_run_escaped {run : Text} (hrun : ∀ character ∈ run, endsText .decoded character = false)
    (text rest : Text) : ∃ lexemes,
      Reads .decoded none (run ++ (escapeMarkup text ++ '<' :: rest)) lexemes none ('<' :: rest) ∧
        AreText lexemes (run ++ text) := by
  induction text generalizing run with
  | nil =>
      by_cases hne : run = []
      · exact ⟨[], by rw [hne]; exact .here none _, [], rfl, by simp [hne], by simp⟩
      · exact ⟨[.ofText run], reads_run hne hrun (by decide) rest, [run], rfl, by simp, by simp [Ne.symm hne]⟩
  | cons character text ih =>
      have hescape : escapeMarkup (character :: text) =
          escapeMarkupCharacter character ++ escapeMarkup text := rfl
      rw [hescape]
      obtain ⟨hplain, hsame⟩ | ⟨tail, htail, hreference⟩ := escape_character_cases character
      · obtain ⟨lexemes, hreads, htext⟩ := @ih (run ++ [character]) fun found hmem ↦
          (List.mem_append.mp hmem).elim (hrun found) fun hlast ↦ List.mem_singleton.mp hlast ▸ hplain
        rw [hsame]
        exact ⟨lexemes, by simpa using hreads, by simpa using htext⟩
      · obtain ⟨lexemes, hreads, htext⟩ := @ih [] (by simp)
        obtain ⟨source, hfirst⟩ := hreference (escapeMarkup text ++ '<' :: rest)
        have hbehind := hfirst.trans hreads
        have htextBehind := @AreText.cons _ source [character] _ htext (by simp)
        rw [htail, List.append_assoc]
        by_cases hne : run = []
        · exact ⟨_, by rw [hne]; exact hbehind, by rw [hne]; exact htextBehind⟩
        · exact ⟨_, (reads_run hne hrun (by decide) _).trans hbehind, htextBehind.cons hne⟩

/-- An escaped text is read as runs and references that together are the text. -/
theorem reads_escaped (text rest : Text) :
    ∃ lexemes, Reads .decoded none (escapeMarkup text ++ '<' :: rest) lexemes none ('<' :: rest) ∧
      AreText lexemes text :=
  @reads_run_escaped [] (by simp) text rest

end Escaped

end LocalizedSite.Html
