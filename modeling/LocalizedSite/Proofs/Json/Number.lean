import LocalizedSite.Json.Read
import LocalizedSite.Json.Write
import LocalizedSite.Proofs.Number.Layout
import LocalizedSite.Proofs.Text.Search

/-!
# Reading numbers back

A number that is written properly is read as what it says, up to the comma or the line break behind
it. `read_atom_integer` and `read_atom_float` say that the texts of integers and of binary64 numbers
are read back.
-/

namespace LocalizedSite

namespace Json

/-- A text that begins with a comma or with a line break, as the text behind a value does. -/
def Breaks (rest : Text) : Prop :=
  ∃ others, rest = ',' :: others ∨ rest = '\n' :: others

/-- A text does not begin with a digit. -/
def NoDigit (rest : Text) : Prop :=
  ∀ first others, rest = first :: others → Text.isLatinDigit first = false

/-- Digits end where no digit follows. -/
theorem span_digits {digits rest : Text} (hdigits : ∀ digit ∈ digits, Text.isLatinDigit digit = true)
    (hrest : NoDigit rest) : (digits ++ rest).span Text.isLatinDigit = (digits, rest) := by
  rw [List.span_eq_takeWhile_dropWhile, List.takeWhile_append_of_pos hdigits,
    List.dropWhile_append_of_pos hdigits]
  cases rest with
  | nil => simp
  | cons first others =>
      have hfirst := hrest first others rfl
      rw [List.takeWhile_cons_of_neg (by simp [hfirst]), List.dropWhile_cons_of_neg (by simp [hfirst]),
        List.append_nil]

/-- What is no digit keeps a text from beginning with one. -/
theorem no_digit_cons {first : Char} (h : Text.isLatinDigit first = false) (others : Text) :
    NoDigit (first :: others) := by
  intro found following hcons
  rw [← (List.cons.inj hcons).1, h]

/-- The text behind a value does not begin with a digit. -/
theorem breaks_no_digit {rest : Text} (h : Breaks rest) : NoDigit rest := by
  obtain ⟨others, rfl | rfl⟩ := h
  · exact no_digit_cons (by decide) others
  · exact no_digit_cons (by decide) others

/-- The text of a power of ten does not begin with a digit. -/
theorem power_text_no_digit (power : Option (Bool × Text)) {rest : Text} (h : Breaks rest) :
    NoDigit (WrittenNumber.powerText power ++ rest) := by
  cases power with
  | none => exact breaks_no_digit h
  | some power => exact no_digit_cons (by decide) _

/-- The text of a fraction does not begin with a digit. -/
theorem fraction_text_no_digit (fraction : Text) {rest : Text} (h : NoDigit rest) :
    NoDigit (WrittenNumber.fractionText fraction ++ rest) := by
  by_cases hempty : fraction = []
  · subst hempty
    exact h
  · rw [Binary64.fraction_text_of_ne_nil hempty]
    exact no_digit_cons (by decide) _

/-- The integer part is read. -/
theorem read_whole {number : WrittenNumber} (h : number.IsProper) {rest : Text}
    (hrest : NoDigit rest) : readWhole (number.whole ++ rest) = some (number.whole, rest) := by
  rcases h.whole_head with hzero | ⟨first, others, hcons, hfirst⟩
  · rw [hzero]
    rfl
  · have hspan := span_digits h.whole_digits hrest
    rw [hcons] at hspan ⊢
    unfold readWhole
    split
    · next hmatch => exact absurd (List.cons.inj hmatch).1 hfirst
    · rw [hspan]

/-- The fraction is read, if the text behind it begins with neither a point nor a digit. -/
theorem read_fraction {fraction rest : Text}
    (hfraction : ∀ digit ∈ fraction, Text.isLatinDigit digit = true) (hrest : NoDigit rest)
    (hpoint : ∀ others, rest ≠ '.' :: others) :
    readFraction (WrittenNumber.fractionText fraction ++ rest) = (fraction, rest) := by
  by_cases hempty : fraction = []
  · subst hempty
    show readFraction rest = ([], rest)
    unfold readFraction
    split
    · next others => exact absurd rfl (hpoint others)
    · rfl
  · rw [Binary64.fraction_text_of_ne_nil hempty, List.cons_append, readFraction,
      span_digits hfraction hrest]
    obtain ⟨first, others, rfl⟩ := List.exists_cons_of_ne_nil hempty
    rfl

/-- The power of ten is read. -/
theorem read_exponent {power : Option (Bool × Text)}
    (hpower : ∀ found ∈ power,
      found.2 ≠ [] ∧ ∀ digit ∈ found.2, Text.isLatinDigit digit = true)
    {rest : Text} (hrest : Breaks rest) :
    readExponent (WrittenNumber.powerText power ++ rest) =
      (power.map fun found ↦ WrittenNumber.powerValue (some found), rest) := by
  cases power with
  | none =>
      obtain ⟨others, rfl | rfl⟩ := hrest
      · rfl
      · rfl
  | some found =>
      obtain ⟨negative, digits⟩ := found
      obtain ⟨hempty, hdigits⟩ := hpower _ rfl
      have hspan := span_digits hdigits (breaks_no_digit hrest)
      obtain ⟨first, others, rfl⟩ := List.exists_cons_of_ne_nil hempty
      cases negative with
      | false =>
          show readExponent ('e' :: '+' :: (first :: others ++ rest)) = _
          simp only [readExponent, true_or, if_true, hspan]
          rfl
      | true =>
          show readExponent ('e' :: '-' :: (first :: others ++ rest)) = _
          simp only [readExponent, true_or, if_true, hspan]
          rfl

/-- The value that a written number stands for. -/
def ofWritten (number : WrittenNumber) : Json :=
  if number.fraction.isEmpty && number.power.isNone then
    .integer (if number.negative then -(Text.decimalValue number.whole : Int)
      else Text.decimalValue number.whole)
  else .float (.ofDecimal number.decimal)

/-- The first character of a number without its sign is a digit. -/
theorem body_head {number : WrittenNumber} (h : number.IsProper) :
    ∃ first others, number.body = first :: others ∧ Text.isLatinDigit first = true := by
  obtain ⟨first, others, hcons⟩ : ∃ first others, number.whole = first :: others := by
    rcases h.whole_head with hzero | ⟨first, others, hcons, -⟩
    · exact ⟨'0', [], hzero⟩
    · exact ⟨first, others, hcons⟩
  have hbody : number.body = first :: (others ++ WrittenNumber.fractionText number.fraction ++
      WrittenNumber.powerText number.power) := by
    rw [WrittenNumber.body, hcons]
    rfl
  have hmem : first ∈ number.whole := by
    rw [hcons]
    exact List.mem_cons_self ..
  exact ⟨first, _, hbody, h.whole_digits first hmem⟩

/-- Read a number behind its sign. -/
def readUnsigned (negative : Bool) (unsigned : Text) : Option (Json × Text) :=
  (readWhole unsigned).map fun (whole, rest) ↦
    let (fraction, rest) := readFraction rest
    let (exponent, rest) := readExponent rest
    let digits := Text.decimalValue (whole ++ fraction)
    if fraction.isEmpty && exponent.isNone then
      (.integer (if negative then -(digits : Int) else digits), rest)
    else
      (.float (.ofDecimal ⟨negative, digits, exponent.getD 0 - fraction.length⟩), rest)

/-- A number with a minus sign. -/
theorem read_number_minus (text : Text) : readNumber ('-' :: text) = readUnsigned true text := rfl

/-- A number without a minus sign. -/
theorem read_number_plain {first : Char} (h : first ≠ '-') (others : Text) :
    readNumber (first :: others) = readUnsigned false (first :: others) := by
  unfold readNumber
  split
  next negative unsigned heq =>
    split at heq
    · next hcons => exact absurd (List.cons.inj hcons).1 h
    · obtain ⟨rfl, rfl⟩ := Prod.mk.inj heq
      rfl

/-- The digits, the fraction and the power of ten of a number are read. -/
theorem read_unsigned_body {number : WrittenNumber} (h : number.IsProper) {rest : Text}
    (hrest : Breaks rest) :
    readUnsigned number.negative (number.body ++ rest) = some (ofWritten number, rest) := by
  have hpoint : ∀ others, WrittenNumber.powerText number.power ++ rest ≠ '.' :: others := by
    intro others hcons
    cases hpower : number.power with
    | none =>
        rw [hpower] at hcons
        obtain ⟨following, rfl | rfl⟩ := hrest
        · exact absurd (List.cons.inj hcons).1 (by decide)
        · exact absurd (List.cons.inj hcons).1 (by decide)
    | some power =>
        rw [hpower] at hcons
        exact absurd (List.cons.inj hcons).1 (by decide)
  have hnodigit := power_text_no_digit number.power hrest
  unfold readUnsigned
  rw [WrittenNumber.body, List.append_assoc, List.append_assoc,
    read_whole h (fraction_text_no_digit _ hnodigit)]
  simp only [Option.map_some, read_fraction h.fraction_digits hnodigit hpoint,
    read_exponent h.power_digits hrest, ofWritten, WrittenNumber.decimal, Option.isNone_map]
  cases hpower : number.power with
  | none =>
      cases hfraction : number.fraction with
      | nil =>
          simp only [List.isEmpty_nil, Option.isNone_none, Bool.and_self, if_true, List.append_nil]
      | cons first others => rfl
  | some power =>
      simp only [Option.isNone_some, Bool.and_false, Bool.false_eq_true, if_false, Option.map_some,
        Option.getD_some]

/-- A number that is written properly is read. -/
theorem read_number {number : WrittenNumber} (h : number.IsProper) {rest : Text}
    (hrest : Breaks rest) : readNumber (number.text ++ rest) = some (ofWritten number, rest) := by
  have hbody := read_unsigned_body h hrest
  rw [WrittenNumber.text]
  cases hnegative : number.negative with
  | true =>
      rw [hnegative] at hbody
      simp only [if_true, List.cons_append]
      rw [read_number_minus, hbody]
  | false =>
      obtain ⟨first, others, hcons, hfirst⟩ := body_head h
      have hminus : first ≠ '-' := by
        rintro rfl
        exact absurd hfirst (by decide)
      rw [hnegative] at hbody
      simp only [Bool.false_eq_true, if_false]
      rw [hcons, List.cons_append] at hbody ⊢
      rw [read_number_plain hminus, hbody]

/-- A text that begins with a digit, perhaps behind a minus sign, begins with no literal name. -/
theorem no_literal {first : Char} (h : Text.isLatinDigit first = true) (others : Text) :
    (literals.findSome? fun (name, value) ↦
      (Text.after? name (first :: others)).map fun rest ↦ (value, rest)) = none ∧
    (literals.findSome? fun (name, value) ↦
      (Text.after? name ('-' :: first :: others)).map fun rest ↦ (value, rest)) = none := by
  have hne {letter : Char} (hletter : Text.isLatinDigit letter = false) : letter ≠ first := by
    rintro rfl
    rw [h] at hletter
    exact absurd hletter (by decide)
  have hn := hne (show Text.isLatinDigit 'n' = false by decide)
  have ht := hne (show Text.isLatinDigit 't' = false by decide)
  have hf := hne (show Text.isLatinDigit 'f' = false by decide)
  have hN := hne (show Text.isLatinDigit 'N' = false by decide)
  have hI := hne (show Text.isLatinDigit 'I' = false by decide)
  have hminus := hne (show Text.isLatinDigit '-' = false by decide)
  constructor
  · simp [literals, Text.after?, hn, ht, hf, hN, hI, hminus]
  · simp [literals, Text.after?, hI]

/-- A number that is written properly is read as a value. -/
theorem read_atom_written {number : WrittenNumber} (h : number.IsProper) {rest : Text}
    (hrest : Breaks rest) : readAtom (number.text ++ rest) = .ok (ofWritten number, rest) := by
  have hliteral : (literals.findSome? fun (name, value) ↦
      (Text.after? name (number.text ++ rest)).map fun rest ↦ (value, rest)) = none := by
    obtain ⟨first, others, hcons, hfirst⟩ := body_head h
    rw [WrittenNumber.text]
    cases number.negative with
    | true =>
        simp only [if_true, hcons, List.cons_append]
        exact (no_literal hfirst _).2
    | false =>
        simp only [Bool.false_eq_true, if_false, hcons, List.cons_append]
        exact (no_literal hfirst _).1
  unfold readAtom
  rw [hliteral]
  simp only [read_number h hrest]

/-- An integer is read back. -/
theorem read_atom_integer (value : Int) {rest : Text} (hrest : Breaks rest) :
    readAtom (Text.ofInt value ++ rest) = .ok (.integer value, rest) := by
  have hhead : Text.ofNat value.natAbs = ['0'] ∨
      ∃ first others, Text.ofNat value.natAbs = first :: others ∧ first ≠ '0' := by
    rcases Nat.eq_zero_or_pos value.natAbs with hzero | hpositive
    · rw [hzero]
      exact .inl rfl
    · have hhead := Text.of_nat_head hpositive
      obtain ⟨first, others, hcons⟩ := List.exists_cons_of_length_pos
        (Text.of_nat_length_pos value.natAbs)
      rw [hcons] at hhead ⊢
      exact .inr ⟨first, others, rfl, fun hzero ↦ hhead (congrArg some hzero)⟩
  have hproper : WrittenNumber.IsProper ⟨value < 0, Text.ofNat value.natAbs, [], none⟩ :=
    ⟨fun _ ↦ Text.latin_digit_of_mem_of_nat, hhead, by simp, by simp⟩
  have htext : Text.ofInt value =
      WrittenNumber.text ⟨value < 0, Text.ofNat value.natAbs, [], none⟩ := by
    simp only [Text.ofInt, WrittenNumber.text, WrittenNumber.body, WrittenNumber.fractionText,
      WrittenNumber.powerText, decide_eq_true_eq, List.isEmpty_nil, if_true, List.append_nil]
  have hvalue : ofWritten ⟨value < 0, Text.ofNat value.natAbs, [], none⟩ = .integer value := by
    simp only [ofWritten, List.isEmpty_nil, Option.isNone_none, Bool.and_self, if_true,
      decide_eq_true_eq, Text.decimal_value_of_nat]
    congr 1
    split
    · omega
    · omega
  rw [htext, read_atom_written hproper hrest, hvalue]

/-- A number that is neither an integer nor infinite is read as the number that its decimal stands
for. -/
theorem of_written_float {number : WrittenNumber}
    (h : number.fraction ≠ [] ∨ number.power ≠ none) :
    ofWritten number = .float (.ofDecimal number.decimal) := by
  unfold ofWritten
  split
  · next hboth =>
      simp only [Bool.and_eq_true, List.isEmpty_iff, Option.isNone_iff_eq_none] at hboth
      rcases h with hfraction | hpower
      · exact absurd hboth.1 hfraction
      · exact absurd hboth.2 hpower
  · rfl

/-- The text of a finite number is that of a written number that stands for it. -/
theorem finite_text_written {significand : Nat} {exponent : Int}
    (h : Binary64.Fits significand exponent) (negative : Bool) :
    ∃ number : WrittenNumber, number.IsProper ∧
      number.text = Binary64.finiteText negative significand exponent ∧
        ofWritten number = .float (.finite negative significand exponent) := by
  by_cases hzero : significand = 0
  · subst hzero
    refine ⟨⟨negative, ['0'], ['0'], none⟩,
      ⟨Binary64.zero_digit, .inl rfl, Binary64.zero_digit, by simp⟩, ?_, ?_⟩
    · cases negative
      · rfl
      · rfl
    · have hleast : exponent = Binary64.leastExponent := by
        rcases h.full with hfull | hleast
        · exact absurd hfull (by norm_num)
        · exact hleast
      rw [of_written_float (.inl (by simp)), Binary64.of_decimal_zero (by rfl), hleast]
      rfl
  · obtain ⟨hnegative, hdigits, hback⟩ :=
      Binary64.of_decimal_shortest h (Nat.pos_of_ne_zero hzero) negative
    obtain ⟨number, hproper, htext, hfloat, hsign, hvalue⟩ := Binary64.layout_written hdigits
    have hnumber : number.decimal.digits ≠ 0 := by
      intro hnone
      have hpositive : (0 : ℚ) < (Binary64.shortest negative significand exponent).value := by
        have hcast : (0 : ℚ) < (Binary64.shortest negative significand exponent).digits := by
          exact_mod_cast Nat.pos_of_ne_zero hdigits
        unfold Decimal.value
        positivity
      rw [← hvalue, Decimal.value, hnone] at hpositive
      simp at hpositive
    refine ⟨number, hproper, ?_, ?_⟩
    · rw [htext, Binary64.finiteText, if_neg hzero]
    · rw [of_written_float hfloat, Binary64.of_decimal_congr hsign hnumber hdigits hvalue, hback]

/-- A binary64 number is read back. -/
theorem read_atom_float {value : Binary64} (h : value.IsNumber) {rest : Text} (hrest : Breaks rest) :
    readAtom (floatText value ++ rest) = .ok (.float value, rest) := by
  cases value with
  | nan => rfl
  | infinity negative =>
      cases negative with
      | false => rfl
      | true => rfl
  | finite negative significand exponent =>
      obtain ⟨number, hproper, htext, hvalue⟩ := finite_text_written h negative
      show readAtom (Binary64.finiteText negative significand exponent ++ rest) = _
      rw [← htext, read_atom_written hproper hrest, hvalue]

/-- What is read as a number is an integer or a binary64 number. -/
theorem read_number_shape {text rest : Text} {value : Json}
    (h : readNumber text = some (value, rest)) :
    (∃ number, value = .integer number) ∨ ∃ number, value = .float number ∧ number.IsNumber := by
  unfold readNumber at h
  split at h
  next negative unsigned heq =>
    obtain ⟨⟨whole, following⟩, -, hvalue⟩ := Option.map_eq_some_iff.mp h
    simp only at hvalue
    split at hvalue
    · exact .inl ⟨_, (Prod.mk.inj hvalue).1.symm⟩
    · exact .inr ⟨_, (Prod.mk.inj hvalue).1.symm, Binary64.of_decimal_is_number _⟩

/-- What is read as a value without parts is a literal name or a number. -/
theorem read_atom_cases {text rest : Text} {value : Json} (h : readAtom text = .ok (value, rest)) :
    (∃ name, (name, value) ∈ literals ∧ text = name ++ rest) ∨
      readNumber text = some (value, rest) := by
  unfold readAtom at h
  split at h
  · next found hfound =>
      obtain rfl := Except.ok.inj h
      obtain ⟨⟨name, named⟩, hmem, hafter⟩ := List.exists_of_findSome?_eq_some hfound
      obtain ⟨following, hname, hvalue⟩ := Option.map_eq_some_iff.mp hafter
      obtain ⟨rfl, rfl⟩ := Prod.mk.inj hvalue
      exact .inl ⟨name, hmem, Text.after_eq_some.mp hname⟩
  · split at h
    · next found hfound =>
        obtain rfl := Except.ok.inj h
        exact .inr hfound
    · exact absurd h (by simp)

/-- Whether a character may stand in a number or in the name of a value. -/
def isAtomCharacter (character : Char) : Bool :=
  Text.isLatinLetter character || Text.isLatinDigit character || "+-.".toList.contains character

/-- Digits may stand in a number. -/
theorem atom_character_of_digit {character : Char} (h : Text.isLatinDigit character = true) :
    isAtomCharacter character = true := by
  simp [isAtomCharacter, h]

/-- What stands in the text of a proper number may stand in one. -/
theorem atom_character_of_mem_written {number : WrittenNumber} (h : number.IsProper)
    {character : Char} (hmem : character ∈ number.text) : isAtomCharacter character = true := by
  have hfraction (hmem : character ∈ WrittenNumber.fractionText number.fraction) :
      isAtomCharacter character = true := by
    unfold WrittenNumber.fractionText at hmem
    split at hmem
    · exact absurd hmem List.not_mem_nil
    · rcases List.mem_cons.mp hmem with rfl | hmem
      · decide
      · exact atom_character_of_digit (h.fraction_digits _ hmem)
  have hpower (hmem : character ∈ WrittenNumber.powerText number.power) :
      isAtomCharacter character = true := by
    cases hcases : number.power with
    | none =>
        rw [hcases] at hmem
        exact absurd hmem List.not_mem_nil
    | some power =>
        obtain ⟨negative, digits⟩ := power
        rw [hcases] at hmem
        rcases List.mem_cons.mp hmem with rfl | hmem
        · decide
        · rcases List.mem_cons.mp hmem with rfl | hmem
          · cases negative with
            | false => decide
            | true => decide
          · exact atom_character_of_digit ((h.power_digits _ hcases).2 _ hmem)
  have hbody (hmem : character ∈ number.body) : isAtomCharacter character = true := by
    rcases List.mem_append.mp hmem with hmem | hmem
    · rcases List.mem_append.mp hmem with hmem | hmem
      · exact atom_character_of_digit (h.whole_digits _ hmem)
      · exact hfraction hmem
    · exact hpower hmem
  unfold WrittenNumber.text at hmem
  split at hmem
  · rcases List.mem_cons.mp hmem with rfl | hmem
    · decide
    · exact hbody hmem
  · exact hbody hmem

/-- What stands in the text of an integer may stand in a number. -/
theorem atom_character_of_mem_int {value : Int} {character : Char}
    (hmem : character ∈ Text.ofInt value) : isAtomCharacter character = true := by
  unfold Text.ofInt at hmem
  split at hmem
  · rcases List.mem_cons.mp hmem with rfl | hmem
    · decide
    · exact atom_character_of_digit (Text.latin_digit_of_mem_of_nat hmem)
  · exact atom_character_of_digit (Text.latin_digit_of_mem_of_nat hmem)

/-- What stands in the text of a binary64 number may stand in a number or in a name. -/
theorem atom_character_of_mem_float {value : Binary64} (h : value.IsNumber) {character : Char}
    (hmem : character ∈ floatText value) : isAtomCharacter character = true := by
  have hname {name : Text} (hall : name.all isAtomCharacter = true) (hmem : character ∈ name) :
      isAtomCharacter character = true := List.all_eq_true.mp hall character hmem
  cases value with
  | nan => exact hname (show "NaN".toList.all isAtomCharacter = true by decide) hmem
  | infinity negative =>
      cases negative with
      | false => exact hname (show "Infinity".toList.all isAtomCharacter = true by decide) hmem
      | true => exact hname (show "-Infinity".toList.all isAtomCharacter = true by decide) hmem
  | finite negative significand exponent =>
      obtain ⟨number, hproper, htext, -⟩ := finite_text_written h negative
      refine atom_character_of_mem_written hproper ?_
      rw [htext]
      exact hmem

end Json

end LocalizedSite
