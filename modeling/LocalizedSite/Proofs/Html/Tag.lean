import LocalizedSite.Html.Token
import LocalizedSite.Proofs.Text.Recut

/-!
# Written start tags

A start tag is written with its name, attributes with blanks in front of each, and the end of the tag; a
value may stand in quotes of either kind, bare, or be missing. Such a tag is read as what it says, and
reading stops behind it (`read_start_tag_written`). One lemma for each way of writing a value.
-/

namespace LocalizedSite.Html

/-- How the value of an attribute is written. -/
inductive WrittenValue where
  | missing
  /-- The content stands between two quotation marks. -/
  | quoted (mark : Char) (content : Text)
  /-- The content stands without quotation marks. -/
  | bare (content : Text)
deriving DecidableEq, Repr

namespace WrittenValue

/-- The characters of a value, from the equals sign on. -/
def text : WrittenValue → Text
  | missing => []
  | quoted mark content => '=' :: mark :: (content ++ [mark])
  | bare content => '=' :: content

/-- The value that is meant. -/
def value : WrittenValue → Option Text
  | missing => none
  | quoted _ content => some (Entity.decode content)
  | bare content => some (Entity.decode content)

/-- Whether a character may stand in a value without quotation marks. -/
def isBareCharacter (character : Char) : Bool :=
  character != '>' && !Text.isBlank character

/-- A value that can be read: a quoted content has not its mark inside, and a bare one is no run of equals
signs and does not begin with a quotation mark. -/
def IsWellFormed : WrittenValue → Prop
  | missing => True
  | quoted mark content => (mark = '\'' ∨ mark = '"') ∧ mark ∉ content
  | bare content => (∀ character ∈ content, isBareCharacter character = true) ∧
      ∃ first rest, content = first :: rest ∧ first ≠ '=' ∧ first ≠ '\'' ∧ first ≠ '"'

end WrittenValue

/-- Whether a character may stand in the name of an attribute. -/
def isAttributeCharacter (character : Char) : Bool :=
  !Text.isBlank character && character != '/' && character != '=' && character != '>'

/-- Whether a character separates the name of a tag from its attributes. -/
def isTagBlank (character : Char) : Bool :=
  endsTagName character && Text.isBlank character

/-- An attribute as it is written in a start tag. -/
structure WrittenAttribute where
  /-- The blanks in front. -/
  blanks : Text
  /-- The name. -/
  name : Text
  /-- The value. -/
  value : WrittenValue
deriving DecidableEq, Repr

namespace WrittenAttribute

/-- The characters of an attribute without the blanks in front. -/
def body (written : WrittenAttribute) : Text :=
  written.name ++ written.value.text

/-- The characters of an attribute. -/
def text (written : WrittenAttribute) : Text :=
  written.blanks ++ written.body

/-- The attribute that is meant. -/
def meant (written : WrittenAttribute) : Attribute :=
  (Text.lower written.name, written.value.value)

/-- An attribute that can be read. -/
structure IsWellFormed (written : WrittenAttribute) : Prop where
  blanks_ne_nil : written.blanks ≠ []
  blanks_blank : ∀ character ∈ written.blanks, isTagBlank character = true
  name_ne_nil : written.name ≠ []
  name_allowed : ∀ character ∈ written.name, isAttributeCharacter character = true
  value_well_formed : written.value.IsWellFormed

end WrittenAttribute

/-- The characters of attributes one after the other. -/
def attributesText (attributes : List WrittenAttribute) : Text :=
  attributes.flatMap WrittenAttribute.text

/-- The characters of a start tag, with blanks before its end. -/
def startTagText (name : Text) (attributes : List WrittenAttribute) (blanks : Text) : Text :=
  '<' :: (name ++ (attributesText attributes ++ (blanks ++ ['>'])))

variable {rest blanks : Text}

/-- A separating character is blank. -/
theorem is_blank_of_tag_blank {character : Char} (h : isTagBlank character = true) :
    Text.isBlank character = true := by
  simp only [isTagBlank, Bool.and_eq_true] at h
  exact h.2

/-- A gap is read up to a character that is neither a blank nor a slash. -/
theorem read_gap_append {gap : Text} {character : Char} (passed rest : Text)
    (hgap : ∀ found ∈ gap, isTagBlank found = true) (hblank : Text.isBlank character = false)
    (hslash : character ≠ '/') :
    readGap passed (gap ++ character :: rest) = (passed.reverse ++ gap, character :: rest) := by
  induction gap generalizing passed with
  | nil =>
      unfold readGap
      split
      · next heq => exact absurd heq (by simp)
      · next heq => exact absurd (List.cons.inj heq).1 hslash
      · next heq =>
          obtain ⟨rfl, rfl⟩ := List.cons.inj heq
          rw [if_neg (by simp [hblank, hslash]), List.append_nil]
  | cons first gap ih =>
      obtain ⟨hfirst, hgap⟩ := List.forall_mem_cons.mp hgap
      have hgapBlank := is_blank_of_tag_blank hfirst
      rw [List.cons_append]
      unfold readGap
      split
      · next heq => exact absurd heq (by simp)
      · next heq =>
          rw [(List.cons.inj heq).1] at hgapBlank
          exact absurd hgapBlank (by decide)
      · next heq =>
          obtain ⟨rfl, rfl⟩ := List.cons.inj heq
          rw [if_pos (by simp [hgapBlank]), ih _ hgap, List.reverse_cons, List.append_assoc]
          rfl

/-- A text is cut at a character that stands there first. -/
theorem cut_at_character {mark : Char} {content : Text} (h : mark ∉ content) (rest : Text) :
    Text.cut? [mark] (content ++ mark :: rest) = some (content, rest) := by
  have hlone : Text.IsLone [mark] := ⟨mark, [], rfl, List.not_mem_nil⟩
  rcases hlone.cut content rest with ⟨-, hcut⟩ | ⟨front, back, -, hcontent, -⟩
  · exact hcut
  · exact absurd (by simp [hcontent]) h

/-- No run of a class begins with a character outside of the class. -/
theorem span_cons_of_not {allowed : Char → Bool} {character : Char} (h : allowed character = false)
    (rest : Text) : (character :: rest).span allowed = ([], character :: rest) :=
  @Text.span_append allowed [] _ (by simp) (by simpa using h)

/-- One equals sign is read if no other follows. -/
theorem span_equals {character : Char} (h : character ≠ '=') (rest : Text) :
    ('=' :: character :: rest).span (· == '=') = (['='], character :: rest) :=
  @Text.span_append (· == '=') ['='] _ (by simp) (by simpa using h)

/-- Where no equals sign follows the blanks, there is no value. -/
theorem read_value_missing {character : Char}
    (hblanks : ∀ found ∈ blanks, isTagBlank found = true) (hblank : Text.isBlank character = false)
    (hequals : character ≠ '=') : readValue? (blanks ++ character :: rest) = none := by
  have hbefore : (blanks ++ character :: rest).span Text.isBlank = (blanks, character :: rest) :=
    Text.span_append _ (fun found hmem ↦ is_blank_of_tag_blank (hblanks found hmem))
      (by simpa using hblank)
  have hsigns : (character :: rest).span (· == '=') = ([], character :: rest) :=
    span_cons_of_not (by simpa using hequals) rest
  simp only [readValue?, hbefore, hsigns]
  rfl

/-- A content between two quotation marks is read up to the second one. -/
theorem read_value_quoted {mark : Char} {content : Text} (hmark : mark = '\'' ∨ mark = '"')
    (hcontent : mark ∉ content) (rest : Text) :
    ∃ source, readValue? ('=' :: mark :: (content ++ mark :: rest)) =
      some (⟨source, content⟩, rest) := by
  have hcut := cut_at_character hcontent rest
  have hbefore := span_cons_of_not (show Text.isBlank '=' = false by decide)
    (mark :: (content ++ mark :: rest))
  have hsigns : ('=' :: mark :: (content ++ mark :: rest)).span (· == '=') =
      (['='], mark :: (content ++ mark :: rest)) :=
    span_equals (by rcases hmark with rfl | rfl <;> decide) _
  have hafter : (mark :: (content ++ mark :: rest)).span Text.isBlank =
      ([], mark :: (content ++ mark :: rest)) :=
    span_cons_of_not (by rcases hmark with rfl | rfl <;> decide) _
  have hquoted : readQuoted? mark (mark :: (content ++ mark :: rest)) =
      some (⟨mark :: content ++ [mark], content⟩, rest) := by
    simp [readQuoted?, Text.after?, hcut]
  rcases hmark with rfl | rfl
  · simp only [readValue?, hbefore, hsigns, hafter, hquoted]
    exact ⟨_, rfl⟩
  · have hsingle : readQuoted? '\'' ('"' :: (content ++ '"' :: rest)) = none := rfl
    simp only [readValue?, hbefore, hsigns, hafter, hquoted, hsingle]
    exact ⟨_, rfl⟩

/-- A content without quotation marks is read up to a blank or the end of the tag. -/
theorem read_value_bare {content : Text} (h : (WrittenValue.bare content).IsWellFormed)
    {character : Char} (hend : WrittenValue.isBareCharacter character = false) (rest : Text) :
    ∃ source, readValue? ('=' :: (content ++ character :: rest)) =
      some (⟨source, content⟩, character :: rest) := by
  obtain ⟨hallowed, first, others, rfl, hequals, hsingle, hdouble⟩ := h
  have hblank : Text.isBlank first = false := by
    have hfirst := hallowed first (List.mem_cons_self ..)
    simp only [WrittenValue.isBareCharacter, Bool.and_eq_true, Bool.not_eq_true'] at hfirst
    exact hfirst.2
  have hbefore := span_cons_of_not (show Text.isBlank '=' = false by decide)
    (first :: (others ++ character :: rest))
  have hsigns : ('=' :: first :: (others ++ character :: rest)).span (· == '=') =
      (['='], first :: (others ++ character :: rest)) := span_equals hequals _
  have hafter := span_cons_of_not hblank (others ++ character :: rest)
  have hquoted {mark : Char} (hmark : first ≠ mark) :
      readQuoted? mark (first :: (others ++ character :: rest)) = none := by
    simp [readQuoted?, Text.after?, hmark.symm]
  have hbare : readBare (first :: (others ++ character :: rest)) =
      (⟨first :: others, first :: others⟩, character :: rest) := by
    have hspan : (first :: (others ++ character :: rest)).span
        (fun found ↦ found != '>' && !Text.isBlank found) = (first :: others, character :: rest) :=
      Text.span_append (character :: rest) hallowed fun found hfound ↦ by
        obtain rfl : character = found := by simpa using hfound
        exact hend
    simp only [readBare, hspan]
  simp only [readValue?, List.cons_append, hbefore, hsigns, hafter, hquoted hsingle, hquoted hdouble,
    List.isEmpty_cons, Bool.false_eq_true, if_false, Option.orElse]
  split
  · next heq => exact absurd (List.cons.inj heq).1 hsingle
  · next heq => exact absurd (List.cons.inj heq).1 hdouble
  · rw [hbare]
    exact ⟨_, rfl⟩

/-- What may follow an attribute: blanks and then the next attribute or the end of the tag. -/
structure IsGap (gap : Text) (next : Char) : Prop where
  blank : ∀ found ∈ gap, isTagBlank found = true
  next_not_blank : Text.isBlank next = false
  next_ne_slash : next ≠ '/'
  next_ne_equals : next ≠ '='
  ends : gap ≠ [] ∨ next = '>'

/-- What follows an attribute ends its name and a value without quotation marks. -/
theorem IsGap.head_ends {gap : Text} {next : Char} (h : IsGap gap next) (more : Text) :
    ∃ character following, gap ++ next :: more = character :: following ∧
      isAttributeCharacter character = false ∧ WrittenValue.isBareCharacter character = false := by
  cases gap with
  | nil =>
      obtain rfl : next = '>' := h.ends.resolve_left fun hne ↦ hne rfl
      exact ⟨'>', more, rfl, by decide, by decide⟩
  | cons character gap =>
      have hblank := is_blank_of_tag_blank (h.blank character (List.mem_cons_self ..))
      exact ⟨character, gap ++ next :: more, rfl, by simp [isAttributeCharacter, hblank],
        by simp [WrittenValue.isBareCharacter, hblank]⟩

/-- The value of an attribute is read as it is meant, up to the gap. -/
theorem read_value_written {value : WrittenValue} (hvalue : value.IsWellFormed) {gap : Text}
    {next : Char} (hgap : IsGap gap next) (more : Text) :
    (readValue? (gap ++ next :: more) = none ∧ value.text = [] ∧ value.value = none) ∨
      ∃ source content, readValue? (value.text ++ (gap ++ next :: more)) =
        some (⟨source, content⟩, gap ++ next :: more) ∧
          value.value = some (Entity.decode content) := by
  cases value with
  | missing =>
      exact .inl ⟨read_value_missing hgap.blank hgap.next_not_blank hgap.next_ne_equals, rfl, rfl⟩
  | quoted mark content =>
      obtain ⟨source, hread⟩ := read_value_quoted hvalue.1 hvalue.2 (gap ++ next :: more)
      exact .inr ⟨source, content, by simpa [WrittenValue.text] using hread, rfl⟩
  | bare content =>
      obtain ⟨character, following, hhead, -, hends⟩ := hgap.head_ends more
      obtain ⟨source, hread⟩ := read_value_bare hvalue hends following
      rw [← hhead] at hread
      exact .inr ⟨source, content, by simpa [WrittenValue.text] using hread, rfl⟩

/-- What follows the name of an attribute does not belong to it. -/
theorem name_ends {value : WrittenValue} {gap : Text} {next : Char} (hgap : IsGap gap next)
    (more : Text) {character : Char}
    (h : (value.text ++ (gap ++ next :: more)).head? = some character) :
    isAttributeCharacter character = false := by
  cases value with
  | missing =>
      obtain ⟨found, following, hhead, hends, -⟩ := hgap.head_ends more
      rw [WrittenValue.text, List.nil_append, hhead] at h
      rwa [← Option.some.inj h]
  | quoted mark content =>
      obtain rfl : '=' = character := by simpa [WrittenValue.text] using h
      decide
  | bare content =>
      obtain rfl : '=' = character := by simpa [WrittenValue.text] using h
      decide

/-- The name of an attribute begins with neither a blank nor what could end the attributes. -/
theorem WrittenAttribute.IsWellFormed.name_cons {written : WrittenAttribute}
    (h : written.IsWellFormed) : ∃ first others, written.name = first :: others ∧
      (Text.isBlank first = false ∧ first ≠ '/' ∧ first ≠ '=' ∧ first ≠ '>') ∧
      ∀ character ∈ others, isAttributeCharacter character = true := by
  obtain ⟨first, others, hname⟩ := List.exists_cons_of_ne_nil h.name_ne_nil
  obtain ⟨hfirst, hothers⟩ := List.forall_mem_cons.mp (hname ▸ h.name_allowed)
  simp only [isAttributeCharacter, Bool.and_eq_true, Bool.not_eq_true', bne_iff_ne] at hfirst
  obtain ⟨⟨⟨hblank, hslash⟩, hequals⟩, hend⟩ := hfirst
  exact ⟨first, others, hname, ⟨hblank, hslash, hequals, hend⟩, hothers⟩

/-- One attribute is read: its name up to what follows it, then a value or none, then the gap. -/
theorem read_attributes_name {written : WrittenAttribute} (hwritten : written.IsWellFormed)
    {following behind gap source : Text} {value : Option Text}
    (hends : ∀ character, following.head? = some character → isAttributeCharacter character = false)
    (hvalue : (readValue? following = none ∧ behind = following ∧ source = [] ∧ value = none) ∨
      ∃ content, readValue? following = some (⟨source, content⟩, behind) ∧
        value = some (Entity.decode content))
    (hgap : readGap [] behind = (gap, rest)) {previous : Char}
    (hprevious : precedesAttribute previous = true) (fuel : Nat) (done : List Attribute)
    (sources : List Text) :
    readAttributes (fuel + 1) previous done sources (written.name ++ following) =
      readAttributes fuel ((written.name ++ source ++ gap).getLast?.getD previous)
        ((Text.lower written.name, value) :: done) ((written.name ++ source ++ gap) :: sources) rest := by
  obtain ⟨first, others, hname, ⟨hblank, hslash, -, hend⟩, hothers⟩ := hwritten.name_cons
  have hstops : (!precedesAttribute previous || Text.isBlank first || first = '/' ||
      first = '>') = false := by
    simp [hprevious, hblank, hslash, hend]
  have hspan : (others ++ following).span
      (fun character ↦ !Text.isBlank character && character != '/' && character != '=' &&
        character != '>') = (others, following) := Text.span_append _ hothers hends
  rw [hname, List.cons_append]
  simp only [readAttributes, hstops, hspan, Bool.false_eq_true, if_false]
  rcases hvalue with ⟨hnone, rfl, rfl, rfl⟩ | ⟨content, hsome, rfl⟩
  · simp only [hnone, hgap, List.append_nil]
  · simp only [hsome, hgap]

/-- One attribute is read with the gap behind it. -/
theorem read_attributes_cons {written : WrittenAttribute} (hwritten : written.IsWellFormed)
    {gap : Text} {next : Char} (hgap : IsGap gap next) (more : Text) {previous : Char}
    (hprevious : precedesAttribute previous = true) (fuel : Nat) (done : List Attribute)
    (sources : List Text) :
    ∃ source, readAttributes (fuel + 1) previous done sources
        (written.body ++ (gap ++ next :: more)) =
      readAttributes fuel ((source ++ gap).getLast?.getD previous) (written.meant :: done)
        ((source ++ gap) :: sources) (next :: more) := by
  have hread := read_gap_append [] more hgap.blank hgap.next_not_blank hgap.next_ne_slash
  rw [WrittenAttribute.body, List.append_assoc]
  rcases read_value_written hwritten.value_well_formed hgap more with
    ⟨hnone, hempty, hmeant⟩ | ⟨source, content, hvalue, hmeant⟩
  · have hbehind : readValue? (written.value.text ++ (gap ++ next :: more)) = none := by
      rw [hempty, List.nil_append, hnone]
    exact ⟨_, read_attributes_name hwritten (fun _ ↦ name_ends hgap more)
      (.inl ⟨hbehind, by rw [hempty, List.nil_append], rfl, hmeant⟩) hread hprevious fuel done sources⟩
  · exact ⟨_, read_attributes_name hwritten (fun _ ↦ name_ends hgap more)
      (.inr ⟨content, hvalue, hmeant⟩) hread hprevious fuel done sources⟩

/-- The blanks at the beginning of attributes and the end of their tag. -/
def leadingGap (attributes : List WrittenAttribute) (blanks : Text) : Text :=
  match attributes with
  | [] => blanks
  | written :: _ => written.blanks

/-- What stands behind these blanks. -/
def behindGap (attributes : List WrittenAttribute) (blanks rest : Text) : Text :=
  match attributes with
  | [] => '>' :: rest
  | written :: others =>
    written.body ++ (attributesText others ++ (blanks ++ '>' :: rest))

/-- Attributes and the end of their tag begin with blanks. -/
theorem leading_gap_append (attributes : List WrittenAttribute) (blanks rest : Text) :
    leadingGap attributes blanks ++ behindGap attributes blanks rest =
      attributesText attributes ++ (blanks ++ '>' :: rest) := by
  cases attributes with
  | nil => rfl
  | cons written others => simp [leadingGap, behindGap, attributesText, WrittenAttribute.text]

/-- The blanks at the beginning are a gap. -/
theorem is_gap_leading {attributes : List WrittenAttribute}
    (hattributes : ∀ written ∈ attributes, written.IsWellFormed)
    (hblanks : ∀ character ∈ blanks, isTagBlank character = true) (rest : Text) :
    ∃ next more, behindGap attributes blanks rest = next :: more ∧
      IsGap (leadingGap attributes blanks) next := by
  cases attributes with
  | nil => exact ⟨'>', rest, rfl, hblanks, by decide, by decide, by decide, .inr rfl⟩
  | cons written others =>
      have hwritten := hattributes written (List.mem_cons_self ..)
      obtain ⟨first, name, hname, ⟨hblank, hslash, hequals, -⟩, -⟩ := hwritten.name_cons
      refine ⟨first, name ++ written.value.text ++ (attributesText others ++ (blanks ++ '>' :: rest)),
        by simp [behindGap, WrittenAttribute.body, hname], hwritten.blanks_blank, hblank, hslash,
        hequals, .inl hwritten.blanks_ne_nil⟩

/-- There are no more attributes than characters behind the first blanks. -/
theorem length_le_behind_gap {attributes : List WrittenAttribute}
    (hattributes : ∀ written ∈ attributes, written.IsWellFormed) (blanks rest : Text) :
    attributes.length ≤ (behindGap attributes blanks rest).length := by
  have hbody {written : WrittenAttribute} (hwritten : written.IsWellFormed) :
      0 < written.body.length := by
    have hname := List.length_pos_iff.mpr hwritten.name_ne_nil
    simp only [WrittenAttribute.body, List.length_append]
    omega
  have htext {others : List WrittenAttribute} (hothers : ∀ written ∈ others, written.IsWellFormed) :
      others.length ≤ (attributesText others).length := by
    induction others with
    | nil => exact Nat.zero_le _
    | cons written others ih =>
        obtain ⟨hwritten, hothers⟩ := List.forall_mem_cons.mp hothers
        have hfirst := hbody hwritten
        have hrest := ih hothers
        simp only [attributesText, List.flatMap_cons, WrittenAttribute.text, List.length_append,
          List.length_cons] at hrest ⊢
        omega
  cases attributes with
  | nil => exact Nat.zero_le _
  | cons written others =>
      obtain ⟨hwritten, hothers⟩ := List.forall_mem_cons.mp hattributes
      have hfirst := hbody hwritten
      have hrest := htext hothers
      simp only [behindGap, List.length_append, List.length_cons]
      omega

/-- A gap that is not empty precedes an attribute. -/
theorem precedes_of_gap {gap : Text} (hne : gap ≠ [])
    (hgap : ∀ character ∈ gap, isTagBlank character = true) (front : Text) (previous : Char) :
    precedesAttribute ((front ++ gap).getLast?.getD previous) = true := by
  rw [List.getLast?_append_of_ne_nil _ hne, List.getLast?_eq_some_getLast hne, Option.getD_some]
  simp [precedesAttribute, is_blank_of_tag_blank (hgap _ (List.getLast_mem hne))]

/-- The blanks in front of an attribute precede it. -/
theorem precedes_of_leading_gap {attributes : List WrittenAttribute}
    (hattributes : ∀ written ∈ attributes, written.IsWellFormed) (hne : attributes ≠ [])
    (blanks front : Text) (previous : Char) :
    precedesAttribute ((front ++ leadingGap attributes blanks).getLast?.getD previous) = true := by
  obtain ⟨first, others, rfl⟩ := List.exists_cons_of_ne_nil hne
  have hfirst := hattributes first (List.mem_cons_self ..)
  exact precedes_of_gap hfirst.blanks_ne_nil hfirst.blanks_blank _ _

/-- All attributes of a tag are read, up to the end of the tag. -/
theorem read_attributes_written {attributes : List WrittenAttribute}
    (hattributes : ∀ written ∈ attributes, written.IsWellFormed)
    (hblanks : ∀ character ∈ blanks, isTagBlank character = true) (rest : Text) {previous : Char}
    (hprevious : attributes ≠ [] → precedesAttribute previous = true) {fuel : Nat}
    (hfuel : attributes.length ≤ fuel) (done : List Attribute) (sources : List Text) :
    ∃ read, readAttributes fuel previous done sources (behindGap attributes blanks rest) =
      ((attributes.map WrittenAttribute.meant).reverse ++ done, read, '>' :: rest) := by
  induction attributes generalizing previous fuel done sources with
  | nil =>
      refine ⟨sources, ?_⟩
      cases fuel with
      | zero => rfl
      | succ fuel => simp [behindGap, readAttributes]
  | cons written others ih =>
      obtain ⟨less, rfl⟩ : ∃ less, fuel = less + 1 := ⟨fuel - 1, by
        simp only [List.length_cons] at hfuel
        omega⟩
      obtain ⟨hwritten, hothers⟩ := List.forall_mem_cons.mp hattributes
      obtain ⟨next, more, hbehind, hgap⟩ := is_gap_leading hothers hblanks rest
      obtain ⟨source, hread⟩ := read_attributes_cons hwritten hgap more (hprevious (by simp)) less done
        sources
      have htext : behindGap (written :: others) blanks rest =
          written.body ++ (leadingGap others blanks ++ next :: more) := by
        rw [← hbehind, leading_gap_append]
        rfl
      obtain ⟨read, hrest⟩ := ih hothers (precedes_of_leading_gap hothers · blanks source previous)
        (by simpa using hfuel) (written.meant :: done) ((source ++ leadingGap others blanks) :: sources)
      refine ⟨read, ?_⟩
      rw [htext, hread, ← hbehind, hrest]
      simp

/-- A name that a tag can have. -/
structure IsTagName (name : Text) : Prop where
  letter : ∃ initial others, name = initial :: others ∧ Text.isLatinLetter initial = true
  allowed : ∀ character ∈ name, endsTagName character = false

/-- A start tag is read: its name, the gap behind it, its attributes and its end. -/
theorem read_start_tag {name following gap behind last : Text} (hname : IsTagName name)
    (hends : ∀ character, following.head? = some character → endsTagName character = true)
    (hgap : readGap [] following = (gap, behind)) {attributes : List Attribute} {read : List Text}
    {ending : Text} {selfClosing : Bool}
    (hread : readAttributes behind.length (('<' :: name ++ gap).getLast?.getD '<') []
      ['<' :: name ++ gap] behind = (attributes, read, last)) (hlast : last = ending ++ rest)
    (hending : ending = ['>'] ∧ selfClosing = false ∨ ending = "/>".toList ∧ selfClosing = true) :
    readConstruct ('<' :: (name ++ following)) = .complete
      ⟨read.reverse.flatten ++ ending, some (.start (Text.lower name) attributes.reverse selfClosing)⟩
        rest := by
  obtain ⟨initial, others, hinitial, hletter⟩ := hname.letter
  have hspan : (name ++ following).span (fun character ↦ !endsTagName character) = (name, following) :=
    Text.span_append _ (fun found hmem ↦ by simp [hname.allowed found hmem])
      fun character hhead ↦ by simp [hends character hhead]
  have hstart : readConstruct ('<' :: (name ++ following)) = readStartTag ('<' :: (name ++ following)) := by
    simp [readConstruct, hinitial, hletter]
  rw [hstart, readStartTag]
  simp only [List.drop_succ_cons, List.drop_zero, hspan, hgap, hread, hlast]
  rcases hending with ⟨rfl, rfl⟩ | ⟨rfl, rfl⟩
  · rfl
  · rfl

/-- A written start tag is read as what it says. -/
theorem read_start_tag_written {name : Text} (hname : IsTagName name)
    {attributes : List WrittenAttribute}
    (hattributes : ∀ written ∈ attributes, written.IsWellFormed)
    (hblanks : ∀ character ∈ blanks, isTagBlank character = true) (rest : Text) :
    ∃ source, readConstruct (startTagText name attributes blanks ++ rest) = .complete
      ⟨source, some (.start (Text.lower name) (attributes.map WrittenAttribute.meant) false)⟩ rest := by
  obtain ⟨next, more, hbehind, hgap⟩ := is_gap_leading hattributes hblanks rest
  have htext : startTagText name attributes blanks ++ rest =
      '<' :: (name ++ (leadingGap attributes blanks ++ next :: more)) := by
    rw [← hbehind, leading_gap_append]
    simp [startTagText]
  have hends : ∀ character,
      (leadingGap attributes blanks ++ next :: more).head? = some character →
        endsTagName character = true := by
    intro character hhead
    cases hgaps : leadingGap attributes blanks with
    | nil =>
        obtain rfl : next = '>' := hgap.ends.resolve_left fun hne ↦ hne hgaps
        obtain rfl : '>' = character := by simpa [hgaps] using hhead
        decide
    | cons first gap =>
        obtain rfl : first = character := by simpa [hgaps] using hhead
        have hblank := hgap.blank first (by simp [hgaps])
        simp only [isTagBlank, Bool.and_eq_true] at hblank
        exact hblank.1
  have hgaps : readGap [] (leadingGap attributes blanks ++ next :: more) =
      (leadingGap attributes blanks, next :: more) :=
    read_gap_append [] more hgap.blank hgap.next_not_blank hgap.next_ne_slash
  have hfuel : attributes.length ≤ (next :: more).length := by
    rw [← hbehind]
    exact length_le_behind_gap hattributes blanks rest
  obtain ⟨read, hread⟩ := read_attributes_written hattributes hblanks rest
    (precedes_of_leading_gap hattributes · blanks ('<' :: name) '<') hfuel []
    ['<' :: name ++ leadingGap attributes blanks]
  rw [hbehind, List.append_nil] at hread
  refine ⟨read.reverse.flatten ++ ['>'], ?_⟩
  rw [htext, read_start_tag hname hends hgaps hread rfl (.inl ⟨rfl, rfl⟩), List.reverse_reverse]

end LocalizedSite.Html
