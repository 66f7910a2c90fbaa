import LocalizedSite.Json.Read
import LocalizedSite.Json.Write
import Mathlib.Tactic.SplitIfs

/-!
# Reading strings back

The characters of a string are escaped one by one, and each escape is read as its character
(`read_string_escape`). What is read as a string literal is a sequence of such pieces, each read as a code
unit (`Encodes`, `encodes_of_read_string`).
-/

namespace LocalizedSite

namespace Json

/-- No character is one half of a surrogate pair. -/
theorem character_no_surrogate (character : Char) :
    isHighSurrogate character.toNat = false ∧ isLowSurrogate character.toNat = false := by
  have hvalid : character.toNat < 0xD800 ∨ 0xDFFF < character.toNat ∧ character.toNat < 0x110000 :=
    character.valid
  unfold isHighSurrogate isLowSurrogate
  simp only [Bool.and_eq_false_iff, decide_eq_false_iff_not]
  omega

/-- The code unit of a character gives the character back. -/
theorem unit_character (character : Char) : unitCharacter character.toNat = character := by
  obtain ⟨hhigh, hlow⟩ := character_no_surrogate character
  simp only [unitCharacter, hhigh, hlow, Bool.or_self, Bool.false_eq_true, if_false,
    Char.ofNat_toNat]

/-- The code units of characters give the characters back. -/
theorem settle_units (characters later : Text) :
    settleUnits later (characters.map Char.toNat) = characters.reverse ++ later := by
  induction characters generalizing later with
  | nil => rfl
  | cons character earlier ih =>
      cases earlier with
      | nil =>
          show [unitCharacter character.toNat] ++ later = _
          rw [unit_character]
          rfl
      | cons before earlier =>
          have hlow := (character_no_surrogate character).2
          have hmore := ih (character :: later)
          have hreverse : (character :: before :: earlier).reverse =
            (before :: earlier).reverse ++ [character] := List.reverse_cons
          rw [List.map_cons] at hmore
          rw [List.map_cons, List.map_cons, settleUnits, hlow, Bool.false_and, if_neg (by decide),
            unit_character, hmore, hreverse, List.append_assoc]
          rfl

/-- The code units of a whole text, last first, give the text back. -/
theorem settle_units_text (text : Text) :
    settleUnits [] ((text.map Char.toNat).reverse ++ []) = text := by
  rw [List.append_nil, ← List.map_reverse, settle_units, List.reverse_reverse, List.append_nil]

/-- Whether four hexadecimal digits of a code unit are read as the unit. -/
def isReadBack (code : Nat) : Bool :=
  match Text.hex 4 code with
  | [first, second, third, fourth] => unit? first second third fourth == some code
  | _ => false

/-- Four hexadecimal digits of a control character are read as its code unit. -/
theorem control_unit {code : Nat} (h : code < 32) : ∃ first second third fourth,
    Text.hex 4 code = [first, second, third, fourth] ∧
      unit? first second third fourth = some code := by
  have hall : ∀ code < 32, isReadBack code = true := by decide
  have hback := hall code h
  unfold isReadBack at hback
  split at hback
  · next first second third fourth hdigits =>
      exact ⟨first, second, third, fourth, hdigits, beq_iff_eq.mp hback⟩
  · exact absurd hback (by decide)

/-- Whether a character may stand behind the backslash of an escape. -/
def isEscapeLetter (character : Char) : Bool :=
  "\"\\bfnrtu0123456789abcdef".toList.contains character

/-- A character stays, or a backslash and letters of an escape are written for it. -/
theorem escape_character_cases (character : Char) :
    (escapeCharacter character = [character] ∧
      character ≠ '"' ∧ character ≠ '\\' ∧ ¬ character.toNat < 32) ∨
    ∃ letters, escapeCharacter character = '\\' :: letters ∧
      letters.all isEscapeLetter = true := by
  have hcontrol : ∀ code < 32, ('u' :: Text.hex 4 code).all isEscapeLetter = true := by decide
  have hsimple {letter : Char} (h : [letter].all isEscapeLetter = true) : ∃ letters,
      ['\\', letter] = '\\' :: letters ∧ letters.all isEscapeLetter = true := ⟨_, rfl, h⟩
  unfold escapeCharacter
  split_ifs with hquote hslash _ _ _ _ _ hlow
  · exact .inr (hsimple (by decide))
  · exact .inr (hsimple (by decide))
  · exact .inr (hsimple (by decide))
  · exact .inr (hsimple (by decide))
  · exact .inr (hsimple (by decide))
  · exact .inr (hsimple (by decide))
  · exact .inr (hsimple (by decide))
  · exact .inr ⟨_, rfl, hcontrol _ hlow⟩
  · exact .inl ⟨rfl, hquote, hslash, hlow⟩

/-- A character that needs no escape is read as it is. -/
theorem read_string_plain (opening : Text) (done : List Nat) {character : Char}
    (hquote : character ≠ '"') (hslash : character ≠ '\\') (hcontrol : ¬ character.toNat < 32)
    (rest : Text) : readString opening done (character :: rest) =
      readString opening (character.toNat :: done) rest := by
  conv => lhs; unfold readString
  split
  · next hcons => exact absurd hcons (by simp)
  · next hcons => exact absurd (List.cons.inj hcons).1 hquote
  · next hcons => exact absurd (List.cons.inj hcons).1 hslash
  · next hcons => exact absurd (List.cons.inj hcons).1 hslash
  · next hcons => exact absurd (List.cons.inj hcons).1 hslash
  · next hcons =>
      obtain ⟨rfl, rfl⟩ := List.cons.inj hcons
      rw [if_neg hcontrol]

/-- Characters that need no escape are read as they are, up to the closing quote. -/
theorem read_string_verbatim {text : Text} (h : ∀ character ∈ text,
      character ≠ '"' ∧ character ≠ '\\' ∧ ¬ character.toNat < 32) (opening rest : Text) :
    readString opening [] (text ++ '"' :: rest) = .ok (text, rest) := by
  have hread (done : List Nat) : readString opening done (text ++ '"' :: rest) =
      .ok (settleUnits [] ((text.map Char.toNat).reverse ++ done), rest) := by
    induction text generalizing done with
    | nil => rfl
    | cons character text ih =>
        obtain ⟨hquote, hslash, hcontrol⟩ := h character (List.mem_cons_self ..)
        rw [List.cons_append, read_string_plain _ _ hquote hslash hcontrol,
          ih fun other hmem ↦ h other (List.mem_cons_of_mem _ hmem)]
        simp
  rw [hread, settle_units_text]

/-- A one-letter escape is read as its character. -/
theorem read_string_simple (opening : Text) (done : List Nat) {letter character : Char}
    (hletter : letter ≠ 'u') (h : simpleEscape? letter = some character) (rest : Text) :
    readString opening done ('\\' :: letter :: rest) =
      readString opening (character.toNat :: done) rest := by
  conv => lhs; unfold readString
  split
  · next hcons => exact absurd hcons (by simp)
  · next hcons => exact absurd (List.cons.inj hcons).1 (by decide)
  · next hcons => exact absurd hcons (by simp)
  · next hcons => exact absurd (List.cons.inj (List.cons.inj hcons).2).1 hletter
  · next hcons =>
      obtain ⟨rfl, rfl⟩ := List.cons.inj (List.cons.inj hcons).2
      rw [if_neg hletter, h]
  · next hother hcons =>
      obtain ⟨hslash, hrest⟩ := List.cons.inj hcons
      exact absurd hrest.symm (hother letter rest hslash.symm)

/-- A four-digit escape is read as its code unit, if a character follows it. -/
theorem read_string_unit (opening : Text) (done : List Nat) {first second third fourth : Char}
    {unit : Nat} (h : unit? first second third fourth = some unit) {rest : Text} (hrest : rest ≠ []) :
    readString opening done ('\\' :: 'u' :: first :: second :: third :: fourth :: rest) =
      readString opening (unit :: done) rest := by
  have hfollowed : rest.isEmpty = false := by
    cases rest with
    | nil => exact absurd rfl hrest
    | cons next following => rfl
  simp only [readString, hfollowed, Bool.false_eq_true, if_false, h]

/-- The contents of string literals with the code units that are read from them. -/
inductive Encodes : Text → List Nat → Prop
  | nil : Encodes [] []
  | unit {first second third fourth : Char} {unit : Nat} {content : Text} {units : List Nat}
      (hunit : unit? first second third fourth = some unit) (h : Encodes content units) :
      Encodes ('\\' :: 'u' :: first :: second :: third :: fourth :: content) (unit :: units)
  | escape {letter character : Char} {content : Text} {units : List Nat} (hletter : letter ≠ 'u')
      (hescape : simpleEscape? letter = some character) (h : Encodes content units) :
      Encodes ('\\' :: letter :: content) (character.toNat :: units)
  | plain {character : Char} {content : Text} {units : List Nat} (hquote : character ≠ '"')
      (hslash : character ≠ '\\') (hcontrol : ¬ character.toNat < 32) (h : Encodes content units) :
      Encodes (character :: content) (character.toNat :: units)

/-- A content is read as its code units, whatever follows the closing quote. -/
theorem Encodes.reads {content : Text} {units : List Nat} (h : Encodes content units)
    (opening rest : Text) (done : List Nat) : readString opening done (content ++ '"' :: rest) =
      .ok (settleUnits [] (units.reverse ++ done), rest) := by
  induction h generalizing done with
  | nil => rfl
  | unit hunit _ ih =>
      simp only [List.cons_append, read_string_unit opening done hunit (List.append_ne_nil_of_right_ne_nil _
        (List.cons_ne_nil _ _)), ih, List.reverse_cons, List.append_assoc, List.nil_append]
  | escape hletter hescape _ ih =>
      simp only [List.cons_append, read_string_simple opening done hletter hescape, ih,
        List.reverse_cons, List.append_assoc, List.nil_append]
  | plain hquote hslash hcontrol _ ih =>
      simp only [List.cons_append, read_string_plain opening done hquote hslash hcontrol, ih,
        List.reverse_cons, List.append_assoc, List.nil_append]

/-- What is read as a string literal is a content, the closing quote and the rest. -/
theorem encodes_of_read_string {opening text value rest : Text} {done : List Nat}
    (h : readString opening done text = .ok (value, rest)) :
    ∃ content units, text = content ++ '"' :: rest ∧ Encodes content units ∧
      value = settleUnits [] (units.reverse ++ done) := by
  fun_induction readString opening done text with
  | case1 => exact absurd h (by simp)
  | case2 done following =>
      obtain ⟨rfl, rfl⟩ := Prod.mk.inj (Except.ok.inj h)
      exact ⟨[], [], rfl, .nil, rfl⟩
  | case3 => exact absurd h (by simp)
  | case4 done first second third fourth following unit hunit ih =>
      obtain ⟨content, units, rfl, hcontent, rfl⟩ := ih h
      have hsome : unit? first second third fourth = some unit := by
        split at hunit
        · exact absurd hunit (by simp)
        · exact hunit
      exact ⟨_, unit :: units, rfl, .unit hsome hcontent, by simp⟩
  | case5 => exact absurd h (by simp)
  | case6 => exact absurd h (by simp)
  | case7 done letter following _ hletter character hescape ih =>
      obtain ⟨content, units, rfl, hcontent, rfl⟩ := ih h
      exact ⟨_, character.toNat :: units, rfl, .escape hletter hescape hcontent, by simp⟩
  | case8 => exact absurd h (by simp)
  | case9 => exact absurd h (by simp)
  | case10 done character following hquote hlone _ hescape hcontrol ih =>
      have hslash : character ≠ '\\' := by
        intro heq
        cases following with
        | nil => exact hlone heq rfl
        | cons letter others => exact hescape letter others heq rfl
      obtain ⟨content, units, rfl, hcontent, rfl⟩ := ih h
      exact ⟨_, character.toNat :: units, rfl, .plain hquote hslash hcontrol hcontent, by simp⟩

/-- The escape of one character is read as the character. -/
theorem read_string_character (opening : Text) (done : List Nat) (character : Char) {rest : Text}
    (hrest : rest ≠ []) :
    readString opening done (escapeCharacter character ++ rest) =
      readString opening (character.toNat :: done) rest := by
  unfold escapeCharacter
  split
  · next heq =>
      subst heq
      rfl
  split
  · next heq =>
      subst heq
      rfl
  split
  · next heq =>
      subst heq
      rfl
  split
  · next heq =>
      subst heq
      rfl
  split
  · next heq =>
      subst heq
      rfl
  split
  · next heq =>
      subst heq
      rfl
  split
  · next heq =>
      subst heq
      rfl
  split
  · next hcontrol =>
      obtain ⟨first, second, third, fourth, hdigits, hunit⟩ := control_unit hcontrol
      rw [hdigits]
      exact read_string_unit opening done hunit hrest
  · next hquote hslash _ _ _ _ _ hcontrol =>
      exact read_string_plain opening done hquote hslash hcontrol rest

/-- The escape of a text is read as its characters, up to the closing quote. -/
theorem read_string_escape (opening text rest : Text) (done : List Nat) :
    readString opening done (escape text ++ '"' :: rest) =
      .ok (settleUnits [] ((text.map Char.toNat).reverse ++ done), rest) := by
  induction text generalizing done with
  | nil => rfl
  | cons character text ih =>
      have hescape : escape (character :: text) = escapeCharacter character ++ escape text := rfl
      rw [hescape, List.append_assoc, read_string_character _ _ _ (by simp), ih, List.map_cons,
        List.reverse_cons, List.append_assoc]
      rfl

/-- A string literal is read as its string. -/
theorem read_string_quote (opening text rest : Text) :
    readString opening [] (escape text ++ '"' :: rest) = .ok (text, rest) := by
  rw [read_string_escape, settle_units_text]

end Json

end LocalizedSite
