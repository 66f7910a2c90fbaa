import LocalizedSite.Proofs.Json.Spelling

/-!
# The accepted texts

What is read as a string, a number or a value without parts is read again when something else follows
it (`read_string_content`, `read_atom_again`). Hence every text that is read as a value is spelled, and
the spelled texts are the JSON texts (`parse_eq_ok_iff`).
-/

namespace LocalizedSite.Json

/-- What is read as a string literal is its content, the closing quote and the rest. -/
theorem read_string_content {opening text value rest : Text} {done : List Nat}
    (h : readString opening done text = .ok (value, rest)) :
    ∃ content, text = content ++ '"' :: rest ∧ ∀ opening rest,
      readString opening done (content ++ '"' :: rest) = .ok (value, rest) := by
  obtain ⟨content, units, rfl, hcontent, rfl⟩ := encodes_of_read_string h
  exact ⟨content, rfl, fun opening rest ↦ hcontent.reads opening rest done⟩

/-- Digits are read again where no digit follows. -/
theorem span_again {text digits rest : Text} (h : text.span Text.isLatinDigit = (digits, rest)) :
    text = digits ++ rest ∧ ∀ other, NoDigit other →
      (digits ++ other).span Text.isLatinDigit = (digits, other) := by
  obtain ⟨htext, hdigits, -⟩ := Text.span_spec h
  exact ⟨htext, fun other hother ↦ span_digits hdigits hother⟩

/-- The integer digits of a number are read again where no digit follows. -/
theorem read_whole_again {text whole rest : Text} (h : readWhole text = some (whole, rest)) :
    text = whole ++ rest ∧
      (∃ first others, whole = first :: others ∧ Text.isLatinDigit first = true) ∧
      ∀ other, NoDigit other → readWhole (whole ++ other) = some (whole, other) := by
  unfold readWhole at h
  split at h
  · obtain ⟨rfl, rfl⟩ := Prod.mk.inj (Option.some.inj h)
    exact ⟨rfl, ⟨'0', [], rfl, by decide⟩, fun other _ ↦ rfl⟩
  · next hzero =>
      split at h
      · exact absurd h (by simp)
      · next digits following hempty hspan =>
          obtain ⟨rfl, rfl⟩ := Prod.mk.inj (Option.some.inj h)
          obtain ⟨first, others, rfl⟩ := List.exists_cons_of_ne_nil hempty
          obtain ⟨rfl, hagain⟩ := span_again hspan
          have hdigit := (Text.span_spec hspan).2.1 first (List.mem_cons_self ..)
          refine ⟨rfl, ⟨first, others, rfl, hdigit⟩, fun other hother ↦ ?_⟩
          unfold readWhole
          split
          · next hcons =>
              exact absurd (by rw [(List.cons.inj hcons).1]; rfl) (hzero (others ++ following))
          · rw [hagain other hother]

/-- A fraction is read again where neither a digit nor a point follows. -/
theorem read_fraction_again {text fraction rest : Text} (h : readFraction text = (fraction, rest)) :
    ∃ front, text = front ++ rest ∧ ∀ other, NoDigit other → (∀ others, other ≠ '.' :: others) →
      NoDigit (front ++ other) ∧ readFraction (front ++ other) = (fraction, other) := by
  have hnone {other : Text} (hpoint : ∀ others, other ≠ '.' :: others) :
      readFraction other = ([], other) := by
    unfold readFraction
    split
    · next others => exact absurd rfl (hpoint others)
    · rfl
  unfold readFraction at h
  split at h
  · split at h
    · obtain ⟨rfl, rfl⟩ := Prod.mk.inj h
      exact ⟨[], rfl, fun other hother hpoint ↦ ⟨hother, hnone hpoint⟩⟩
    · next digits following hempty hspan =>
        obtain ⟨rfl, rfl⟩ := Prod.mk.inj h
        obtain ⟨rfl, hagain⟩ := span_again hspan
        refine ⟨'.' :: digits, rfl, fun other hother _ ↦ ⟨no_digit_cons (by decide) _, ?_⟩⟩
        obtain ⟨first, others, rfl⟩ := List.exists_cons_of_ne_nil hempty
        rw [List.cons_append, readFraction, hagain other hother]
  · obtain ⟨rfl, rfl⟩ := Prod.mk.inj h
    exact ⟨[], rfl, fun other hother hpoint ↦ ⟨hother, hnone hpoint⟩⟩

/-- Where a value ends there is no exponent. -/
theorem read_exponent_none {rest : Text} (h : Delimited rest) : readExponent rest = (none, rest) := by
  cases rest with
  | nil => rfl
  | cons first others =>
      obtain ⟨-, -, hlower, hupper⟩ := h first others rfl
      show (if first = 'e' ∨ first = 'E' then _ else _) = _
      rw [if_neg (not_or.mpr ⟨hlower, hupper⟩)]

/-- No digit follows where a value ends. -/
theorem Delimited.no_digit {rest : Text} (h : Delimited rest) : NoDigit rest :=
  fun first others hcons ↦ (h first others hcons).1

/-- No point follows where a value ends. -/
theorem Delimited.no_point {rest : Text} (h : Delimited rest) (others : Text) :
    rest ≠ '.' :: others :=
  fun hcons ↦ absurd rfl (h '.' others hcons).2.1

/-- The sign of an exponent with what follows it. -/
def readSign (text : Text) : Bool × Text :=
  match text with
  | '-' :: following => (true, following)
  | '+' :: following => (false, following)
  | _ => (false, text)

/-- An exponent behind its mark. -/
theorem read_exponent_mark {mark : Char} (hmark : mark = 'e' ∨ mark = 'E') (text : Text) :
    readExponent (mark :: text) =
      match (readSign text).2.span Text.isLatinDigit with
      | ([], _) => (none, mark :: text)
      | (digits, following) =>
        (some (if (readSign text).1 then -(Text.decimalValue digits : Int)
          else Text.decimalValue digits), following) := by
  show (if mark = 'e' ∨ mark = 'E' then _ else _) = _
  rw [if_pos hmark]
  rfl

/-- The sign of an exponent is read again in front of digits. -/
theorem read_sign_again {text unsigned : Text} {negative : Bool}
    (h : readSign text = (negative, unsigned)) :
    ∃ sign, text = sign ++ unsigned ∧ ∀ first others, Text.isLatinDigit first = true →
      readSign (sign ++ first :: others) = (negative, first :: others) := by
  unfold readSign at h
  split at h
  · obtain ⟨rfl, rfl⟩ := Prod.mk.inj h
    exact ⟨['-'], rfl, fun _ _ _ ↦ rfl⟩
  · obtain ⟨rfl, rfl⟩ := Prod.mk.inj h
    exact ⟨['+'], rfl, fun _ _ _ ↦ rfl⟩
  · obtain ⟨rfl, rfl⟩ := Prod.mk.inj h
    refine ⟨[], rfl, fun first others hdigit ↦ ?_⟩
    unfold readSign
    split
    · next hcons =>
        rw [(List.cons.inj hcons).1] at hdigit
        exact absurd hdigit (by decide)
    · next hcons =>
        rw [(List.cons.inj hcons).1] at hdigit
        exact absurd hdigit (by decide)
    · rfl

/-- An exponent is read again where a value ends. -/
theorem read_exponent_again {text rest : Text} {exponent : Option Int}
    (h : readExponent text = (exponent, rest)) :
    ∃ front, text = front ++ rest ∧ ∀ other, Delimited other →
      NoDigit (front ++ other) ∧ (∀ others, front ++ other ≠ '.' :: others) ∧
        readExponent (front ++ other) = (exponent, other) := by
  have hnone {text rest : Text} {exponent : Option Int} (h : (none, text) = (exponent, rest)) :
      ∃ front, text = front ++ rest ∧ ∀ other, Delimited other →
        NoDigit (front ++ other) ∧ (∀ others, front ++ other ≠ '.' :: others) ∧
          readExponent (front ++ other) = (exponent, other) := by
    obtain ⟨rfl, rfl⟩ := Prod.mk.inj h
    exact ⟨[], rfl, fun other hother ↦
      ⟨hother.no_digit, hother.no_point, read_exponent_none hother⟩⟩
  cases text with
  | nil => exact hnone h
  | cons mark text =>
      by_cases hmark : mark = 'e' ∨ mark = 'E'
      · rw [read_exponent_mark hmark] at h
        obtain ⟨sign, htext, hsign⟩ := read_sign_again (Prod.mk.eta (p := readSign text)).symm
        split at h
        · exact hnone h
        · next digits following hempty hspan =>
            obtain ⟨rfl, rfl⟩ := Prod.mk.inj h
            obtain ⟨hunsigned, hagain⟩ := span_again hspan
            obtain ⟨first, others, rfl⟩ := List.exists_cons_of_ne_nil hempty
            have hdigit := (Text.span_spec hspan).2.1 first (List.mem_cons_self ..)
            refine ⟨mark :: (sign ++ first :: others), ?_, fun other hother ↦ ⟨?_, ?_, ?_⟩⟩
            · rw [htext, hunsigned]
              simp
            · rcases hmark with rfl | rfl
              · exact no_digit_cons (by decide) _
              · exact no_digit_cons (by decide) _
            · intro others hcons
              have hpoint := (List.cons.inj hcons).1
              rcases hmark with rfl | rfl
              · exact absurd hpoint (by decide)
              · exact absurd hpoint (by decide)
            · have hback := hagain other hother.no_digit
              rw [List.cons_append, read_exponent_mark hmark, List.append_assoc, List.cons_append,
                hsign first _ hdigit]
              rw [List.cons_append] at hback
              simp only [hback]
      · have hother : readExponent (mark :: text) = (none, mark :: text) := by
          show (if mark = 'e' ∨ mark = 'E' then _ else _) = _
          rw [if_neg hmark]
        rw [hother] at h
        exact hnone h

/-- A number behind its sign is read again where a value ends. -/
theorem read_unsigned_again {negative : Bool} {text rest : Text} {value : Json}
    (hread : readUnsigned negative text = some (value, rest)) :
    ∃ first others, Text.isLatinDigit first = true ∧ text = first :: (others ++ rest) ∧
      ∀ other, Delimited other →
        readUnsigned negative (first :: (others ++ other)) = some (value, other) := by
  unfold readUnsigned at hread ⊢
  obtain ⟨⟨whole, afterWhole⟩, hwhole, h⟩ := Option.map_eq_some_iff.mp hread
  obtain ⟨rfl, ⟨first, others, rfl, hdigit⟩, hwholeAgain⟩ := read_whole_again hwhole
  cases hfraction : readFraction afterWhole with
  | mk fraction afterFraction =>
      cases hexponent : readExponent afterFraction with
      | mk exponent behind =>
          obtain ⟨point, rfl, hfractionAgain⟩ := read_fraction_again hfraction
          obtain ⟨power, rfl, hexponentAgain⟩ := read_exponent_again hexponent
          clear hread
          simp only [hfraction, hexponent] at h
          have hbehind : behind = rest := by
            split at h
            · exact (Prod.mk.inj h).2
            · exact (Prod.mk.inj h).2
          refine ⟨first, others ++ (point ++ power), hdigit, by simp [hbehind], fun other hother ↦ ?_⟩
          obtain ⟨hpowerDigit, hpowerPoint, hpower⟩ := hexponentAgain other hother
          obtain ⟨hpointDigit, hpoint⟩ := hfractionAgain _ hpowerDigit hpowerPoint
          have htext : first :: (others ++ (point ++ power) ++ other) =
              first :: others ++ (point ++ (power ++ other)) := by simp
          rw [htext, hwholeAgain _ hpointDigit]
          simp only [Option.map_some, hpoint, hpower]
          split at h
          · next hinteger => rw [if_pos hinteger, (Prod.mk.inj h).1]
          · next hfloat => rw [if_neg hfloat, (Prod.mk.inj h).1]

/-- A number is read again where a value ends; it begins with a digit, perhaps behind a minus sign. -/
theorem read_number_again {text rest : Text} {value : Json}
    (h : readNumber text = some (value, rest)) :
    ∃ front, text = front ++ rest ∧
      (∃ first others, Text.isLatinDigit first = true ∧
        (front = first :: others ∨ front = '-' :: first :: others)) ∧
      ∀ other, Delimited other → readNumber (front ++ other) = some (value, other) := by
  cases text with
  | nil => exact absurd h (show (none : Option (Json × Text)) ≠ _ by simp)
  | cons character text =>
      by_cases hminus : character = '-'
      · subst hminus
        rw [read_number_minus] at h
        obtain ⟨first, others, hdigit, rfl, hagain⟩ := read_unsigned_again h
        exact ⟨'-' :: first :: others, rfl, ⟨first, others, hdigit, .inr rfl⟩, hagain⟩
      · rw [read_number_plain hminus] at h
        obtain ⟨first, others, hdigit, htext, hagain⟩ := read_unsigned_again h
        obtain ⟨rfl, rfl⟩ := List.cons.inj htext
        refine ⟨character :: others, rfl, ⟨character, others, hdigit, .inl rfl⟩, fun other hother ↦ ?_⟩
        rw [List.cons_append, read_number_plain hminus]
        exact hagain other hother

/-- A value without parts is read again where a value ends. -/
theorem read_atom_again {text rest : Text} {value : Json} (h : readAtom text = .ok (value, rest)) :
    ∃ front, text = front ++ rest ∧ IsAtom front value := by
  rcases read_atom_cases h with ⟨name, hmem, htext⟩ | hfound
  · refine ⟨name, htext, fun other _ ↦ ?_⟩
    simp only [literals, List.mem_cons, List.not_mem_nil, or_false] at hmem
    rcases hmem with heq | heq | heq | heq | heq | heq
    all_goals
      obtain ⟨rfl, rfl⟩ := Prod.mk.inj heq
      rfl
  · obtain ⟨front, rfl, ⟨first, others, hdigit, hfront⟩, hagain⟩ := read_number_again hfound
    refine ⟨front, rfl, fun other hother ↦ ?_⟩
    have hnumber := hagain other hother
    unfold readAtom
    -- no literal begins with a digit or a sign, so that the number is read
    rcases hfront with rfl | rfl
    · rw [List.cons_append] at hnumber ⊢
      rw [(no_literal hdigit _).1]
      simp only [hnumber]
    · rw [List.cons_append, List.cons_append] at hnumber ⊢
      rw [(no_literal hdigit _).2]
      simp only [hnumber]

variable {α : Type}

/-- A text is a gap and what follows it. -/
theorem skip_gap_spec (text : Text) : ∃ gap, IsGap gap ∧ text = gap ++ skipGap text :=
  ⟨text.takeWhile isGap, fun _ hmem ↦ List.mem_takeWhile_imp hmem,
    List.takeWhile_append_dropWhile.symm⟩

section Depth

variable (fits : α → Prop) (texts : α → Text) (depth : Nat)

/-- What is read as a value at a depth is spelled, with nothing left open. -/
def ValuesSpelled : Prop :=
  ∀ {text rest : Text} {value : Json}, readValue depth text = .ok (value, rest) →
    ∃ shape front, text = front ++ rest ∧ Spells fits (.value shape) (.plain front) ∧
      shape.fill texts = value

/-- What is read as the items of an array at a depth is spelled, with nothing left open. -/
def ItemsSpelled : Prop :=
  ∀ {done : List Json} {text rest : Text} {value : Json},
    readItems depth done text = .ok (value, rest) →
    ∃ items front, text = front ++ rest ∧ Spells fits (.items items) (.plain front) ∧
      .array (done.reverse ++ fillItems texts items) = value

/-- What is read as the members of an object at a depth is spelled, with nothing left open. -/
def MembersSpelled : Prop :=
  ∀ {done : List (Text × Json)} {text rest : Text} {value : Json},
    readMembers depth done text = .ok (value, rest) →
    ∃ members front, text = front ++ rest ∧ Spells fits (.members members) (.plain front) ∧
      .object (Entries.ofList (done.reverse ++ fillMembers texts members)) = value

end Depth

section Spelled

variable {fits : α → Prop} {texts : α → Text} {depth : Nat}

/-- A value is spelled if its items and members are. -/
theorem ValuesSpelled.step (hitems : ItemsSpelled fits texts depth)
    (hmembers : MembersSpelled fits texts depth) : ValuesSpelled fits texts (depth + 1) := by
  intro text rest value h
  unfold readValue at h
  split at h
  · next following =>
      cases hread : readString ('"' :: following) [] following with
      | error stop =>
          rw [hread] at h
          exact absurd h (by simp [Except.map])
      | ok found =>
          obtain ⟨content, hcontent, hagain⟩ := read_string_content hread
          rw [hread] at h
          obtain ⟨rfl, rfl⟩ := Prod.mk.inj (Except.ok.inj h)
          exact ⟨_, _, by rw [hcontent]; simp, .string hagain, rfl⟩
  · next following =>
      obtain ⟨gap, hgap, hfollowing⟩ := skip_gap_spec following
      split at h
      · next behind hskip =>
          obtain ⟨rfl, rfl⟩ := Prod.mk.inj (Except.ok.inj h)
          exact ⟨_, _, by rw [hfollowing, hskip]; simp, .emptyArray hgap, rfl⟩
      · obtain ⟨items, front, hfront, hspells, hvalue⟩ := hitems h
        exact ⟨_, '[' :: gap ++ front, by rw [hfollowing, hfront]; simp, .array hgap hspells, hvalue⟩
  · next following =>
      obtain ⟨gap, hgap, hfollowing⟩ := skip_gap_spec following
      split at h
      · next behind hskip =>
          obtain ⟨rfl, rfl⟩ := Prod.mk.inj (Except.ok.inj h)
          exact ⟨_, _, by rw [hfollowing, hskip]; simp, .emptyObject hgap, rfl⟩
      · obtain ⟨members, front, hfront, hspells, hvalue⟩ := hmembers h
        exact ⟨_, '\x7b' :: gap ++ front, by rw [hfollowing, hfront]; simp, .object hgap hspells,
          hvalue⟩
  · obtain ⟨front, hfront, hatom⟩ := read_atom_again h
    exact ⟨_, front, hfront, .atom hatom, rfl⟩

/-- Items are spelled if the first of them and the others are. -/
theorem ItemsSpelled.step (hvalues : ValuesSpelled fits texts depth)
    (hitems : ItemsSpelled fits texts depth) : ItemsSpelled fits texts (depth + 1) := by
  intro done text rest value h
  unfold readItems at h
  split at h
  · exact absurd h (by simp)
  · next item following hread =>
      obtain ⟨shape, front, hfront, hspells, hitem⟩ := hvalues hread
      obtain ⟨gap, hgap, hfollowing⟩ := skip_gap_spec following
      split at h
      · next behind hskip =>
          obtain ⟨rfl, rfl⟩ := Prod.mk.inj (Except.ok.inj h)
          refine ⟨_, front ++ (gap ++ [']']), ?_, .lastItem hspells hgap, ?_⟩
          · rw [hfront, hfollowing, hskip]
            simp
          · simp [fillItems, hitem]
      · next behind hskip =>
          obtain ⟨next, hnext, hbehind⟩ := skip_gap_spec behind
          obtain ⟨items, others, hothers, hmore, hvalue⟩ := hitems h
          refine ⟨_, front ++ (gap ++ ',' :: next ++ others), ?_, .item hspells hgap hnext hmore, ?_⟩
          · rw [hfront, hfollowing, hskip, hbehind, hothers]
            simp
          · rw [← hvalue]
            simp [fillItems, hitem]
      · exact absurd h (by simp)

/-- The member that members begin with has a name and a value that is spelled; the object ends behind
it, or a comma and the other members follow. -/
theorem read_members_cases (hvalues : ValuesSpelled fits texts depth) {done : List (Text × Json)}
    {text rest : Text} {value : Json} (h : readMembers (depth + 1) done text = .ok (value, rest)) :
    ∃ name content before after shape front gap behind, IsContent content name ∧ IsGap before ∧
      IsGap after ∧ Spells fits (.value shape) (.plain front) ∧ IsGap gap ∧
      text = '"' :: (content ++ '"' :: (before ++ ':' :: after)) ++ (front ++ (gap ++ behind)) ∧
      (behind = '\x7d' :: rest ∧
          value = .object (Entries.ofList ((name, shape.fill texts) :: done).reverse) ∨
        ∃ others, behind = ',' :: others ∧ readMembers depth ((name, shape.fill texts) :: done)
          (skipGap others) = .ok (value, rest)) := by
  unfold readMembers at h
  split at h
  case h_2 => exact absurd h (by simp)
  next literal =>
  split at h
  case h_1 => exact absurd h (by simp)
  next name afterName hname =>
  obtain ⟨content, hcontent, hagain⟩ := read_string_content hname
  obtain ⟨before, hbefore, hafterName⟩ := skip_gap_spec afterName
  split at h
  case h_2 => exact absurd h (by simp)
  next afterColon hcolon =>
  obtain ⟨after, hafter, hafterColon⟩ := skip_gap_spec afterColon
  split at h
  case h_1 => exact absurd h (by simp)
  next member following hread =>
  obtain ⟨shape, front, hfront, hspells, rfl⟩ := hvalues hread
  obtain ⟨gap, hgap, hfollowing⟩ := skip_gap_spec following
  refine ⟨name, content, before, after, shape, front, gap, skipGap following, hagain, hbefore, hafter,
    hspells, hgap, ?_, ?_⟩
  · rw [hcontent, hafterName, hcolon, hafterColon, hfront, ← hfollowing]
    simp
  · split at h
    · next behind hskip =>
        obtain ⟨rfl, rfl⟩ := Prod.mk.inj (Except.ok.inj h)
        exact .inl ⟨hskip, rfl⟩
    · next behind hskip => exact .inr ⟨behind, hskip, h⟩
    · exact absurd h (by simp)

/-- Members are spelled if the value of the first of them and the others are. -/
theorem MembersSpelled.step (hvalues : ValuesSpelled fits texts depth)
    (hmembers : MembersSpelled fits texts depth) : MembersSpelled fits texts (depth + 1) := by
  intro done text rest value h
  obtain ⟨name, content, before, after, shape, front, gap, behind, hname, hbefore, hafter, hspells,
    hgap, rfl, ⟨rfl, rfl⟩ | ⟨following, rfl, hread⟩⟩ := read_members_cases hvalues h
  · refine ⟨_, '"' :: (content ++ '"' :: (before ++ ':' :: after)) ++ (front ++ (gap ++ ['\x7d'])), ?_,
      .lastMember hname hbefore hafter hspells hgap, ?_⟩
    · simp
    · simp [fillMembers]
  · obtain ⟨next, hnext, hfollowing⟩ := skip_gap_spec following
    obtain ⟨members, others, hothers, hmore, hvalue⟩ := hmembers hread
    refine ⟨_, '"' :: (content ++ '"' :: (before ++ ':' :: after)) ++
      (front ++ (gap ++ ',' :: next ++ others)), ?_,
      .member hname hbefore hafter hspells hgap hnext hmore, ?_⟩
    · rw [hfollowing, hothers]
      simp
    · rw [← hvalue]
      simp [fillMembers]

end Spelled

/-- A value, the items of an array and the members of an object that are read at any depth are
spelled. -/
theorem read_spells (fits : α → Prop) (texts : α → Text) (depth : Nat) :
    ValuesSpelled fits texts depth ∧ ItemsSpelled fits texts depth ∧
      MembersSpelled fits texts depth := by
  induction depth with
  | zero =>
      refine ⟨fun h ↦ ?_, fun h ↦ ?_, fun h ↦ ?_⟩
      · exact absurd h (by simp [readValue])
      · exact absurd h (by simp [readItems])
      · exact absurd h (by simp [readMembers])
  | succ depth ih =>
      obtain ⟨hvalues, hitems, hmembers⟩ := ih
      exact ⟨ValuesSpelled.step hitems hmembers, ItemsSpelled.step hvalues hitems,
        MembersSpelled.step hvalues hmembers⟩

/-- The texts that are read as a value are the ones that spell it. -/
theorem parse_eq_ok_iff {fits : α → Prop} {write texts : α → Text}
    (hwrite : ∀ occurrence, fits occurrence → IsContent (write occurrence) (texts occurrence))
    {text : Text} {value : Json} : parse text = .ok value ↔
      ∃ shape, Document fits shape (.plain text) ∧ shape.fill texts = value := by
  constructor
  · intro h
    obtain ⟨rest, hread, hend⟩ := read_of_parse h
    obtain ⟨before, hbefore, htext⟩ := skip_gap_spec text
    obtain ⟨shape, front, hfront, hspells, hvalue⟩ := (read_spells fits texts _).1 hread
    refine ⟨shape, ⟨before, .plain front, rest, hbefore, ?_, hspells, ?_⟩, hvalue⟩
    · exact List.dropWhile_eq_nil_iff.mp hend
    · rw [htext, hfront]
      rfl
  · rintro ⟨shape, hdocument, rfl⟩
    exact hdocument.parse_text hwrite

/-- A text that is read as a value spells it between two gaps, without an open string. -/
theorem spells_of_parse {text : Text} {value : Json} (h : parse text = .ok value) :
    ∃ (shape : Shape Unit) (before after : Text) (inner : Cuts Unit), IsGap before ∧ IsGap after ∧
      Spells (fun _ ↦ False) (.value shape) inner ∧ shape.fill (fun _ ↦ []) = value ∧
        text = before ++ (inner.text (fun _ ↦ []) ++ after) := by
  obtain ⟨shape, ⟨before, inner, after, hbefore, hafter, hspells, hwhole⟩, hvalue⟩ :=
    (@parse_eq_ok_iff Unit (fun _ ↦ False) (fun _ ↦ []) (fun _ ↦ []) (fun _ hfits ↦ hfits.elim)
      text value).mp h
  refine ⟨shape, before, after, inner, hbefore, hafter, hspells, hvalue, ?_⟩
  simpa using congrArg (Cuts.text fun _ ↦ []) hwhole

/-- A text that is read as a value is read no more with something behind it, other than a gap or what a
number goes on with. -/
theorem is_gap_of_parse_append {front rest : Text} {value whole : Json}
    (h : parse front = .ok value) (hrest : Delimited rest) (hwhole : parse (front ++ rest) = .ok whole) :
    IsGap rest := by
  let nothing : Unit → Text := fun _ ↦ []
  obtain ⟨shape, before, after, inner, hbefore, hafter, hspells, -, htext⟩ := spells_of_parse h
  have hfront : front = before ++ (inner.text nothing ++ after) := htext
  have hagain : readValue ((front ++ rest).length + 1) (inner.text nothing ++ (after ++ rest)) =
      .ok (shape.fill nothing, after ++ rest) := by
    refine hspells.reads (fun _ hnever ↦ hnever.elim) _ _ (hrest.gap hafter) ?_
    rw [hfront]
    simp only [List.length_append]
    omega
  have hskip : skipGap (front ++ rest) = inner.text nothing ++ (after ++ rest) := by
    obtain ⟨first, others, hhead, hgap, -⟩ := read_value_head hagain
    rw [hfront, List.append_assoc, List.append_assoc, hhead, skip_gap_append hbefore hgap]
  obtain ⟨behind, hbehind, hnone⟩ := read_of_parse hwhole
  rw [hskip, hagain] at hbehind
  rw [← (Prod.mk.inj (Except.ok.inj hbehind)).2] at hnone
  have hgaps : IsGap (after ++ rest) := List.dropWhile_eq_nil_iff.mp hnone
  exact fun character hmem ↦ hgaps character (List.mem_append_right _ hmem)

end LocalizedSite.Json
