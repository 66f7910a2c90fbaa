import LocalizedSite.Proofs.Json.Number
import LocalizedSite.Proofs.Json.String
import LocalizedSite.Proofs.Json.WellFormed
import LocalizedSite.Proofs.Text.Lines

/-!
# Reading written values back

The text of a well-formed value is read as this value (`parse_dump`). The induction is on the value;
the items of an array and the members of an object are read one after another, each up to the comma
or the line break behind it.
-/

namespace LocalizedSite

namespace Json

/-- What is read as a value without parts is read as a value. -/
theorem read_value_atom {text : Text} {found : Json × Text} (h : readAtom text = .ok found)
    (depth : Nat) : readValue (depth + 1) text = .ok found := by
  unfold readValue
  split
  · next rest => exact absurd h (show (Except.error _ : Except Stop (Json × Text)) ≠ _ by simp)
  · next rest => exact absurd h (show (Except.error _ : Except Stop (Json × Text)) ≠ _ by simp)
  · next rest => exact absurd h (show (Except.error _ : Except Stop (Json × Text)) ≠ _ by simp)
  · exact h

/-- Where a value begins there is neither a gap nor a closing bracket nor a byte order mark. -/
theorem read_value_head {depth : Nat} {text : Text} {found : Json × Text}
    (h : readValue depth text = .ok found) :
    ∃ first others, text = first :: others ∧ isGap first = false ∧ first ≠ ']' ∧
      first ≠ '\uFEFF' := by
  cases depth with
  | zero => exact absurd h (show (Except.error _ : Except Stop (Json × Text)) ≠ _ by simp)
  | succ depth =>
      cases text with
      | nil => exact absurd h (show (Except.error _ : Except Stop (Json × Text)) ≠ _ by simp)
      | cons first others =>
          have hno {letter : Char} (hfail : ∃ stop, readValue (depth + 1) (letter :: others) =
              .error stop) : first ≠ letter := by
            rintro rfl
            obtain ⟨stop, hstop⟩ := hfail
            rw [hstop] at h
            exact absurd h (by simp)
          have hspace := hno (show ∃ stop, readValue (depth + 1) (' ' :: others) = .error stop from
            ⟨_, rfl⟩)
          have htab := hno (show ∃ stop, readValue (depth + 1) ('\t' :: others) = .error stop from
            ⟨_, rfl⟩)
          have hline := hno (show ∃ stop, readValue (depth + 1) ('\n' :: others) = .error stop from
            ⟨_, rfl⟩)
          have hreturn := hno (show ∃ stop, readValue (depth + 1) ('\r' :: others) = .error stop from
            ⟨_, rfl⟩)
          have hbracket := hno (show ∃ stop, readValue (depth + 1) (']' :: others) = .error stop from
            ⟨_, rfl⟩)
          have hmark := hno (show ∃ stop, readValue (depth + 1) ('\uFEFF' :: others) = .error stop from
            ⟨_, rfl⟩)
          refine ⟨first, others, rfl, ?_, hbracket, hmark⟩
          simp [isGap, hspace, htab, hline, hreturn]

/-- A text of blanks and line breaks. -/
def IsGap (text : Text) : Prop :=
  ∀ character ∈ text, isGap character = true

/-- A gap ends where something else begins. -/
theorem skip_gap_append {gap : Text} (hgap : IsGap gap) {first : Char} (h : isGap first = false)
    (others : Text) : skipGap (gap ++ first :: others) = first :: others := by
  rw [skipGap, List.dropWhile_append_of_pos hgap, List.dropWhile_cons_of_neg (by simp [h])]

/-- A line break with the indentation behind it is a gap. -/
theorem is_gap_line (width : Nat) : IsGap (newLine width) := by
  intro character hmem
  rcases List.mem_cons.mp hmem with rfl | hmem
  · rfl
  · rw [List.eq_of_mem_replicate hmem]
    rfl

/-- The gap of a line break ends where something else begins. -/
theorem skip_gap_line {first : Char} (h : isGap first = false) (width : Nat) (others : Text) :
    skipGap (newLine width ++ first :: others) = first :: others :=
  skip_gap_append (is_gap_line width) h others

/-- There is no gap where something else begins. -/
theorem skip_gap_none {first : Char} (h : isGap first = false) (others : Text) :
    skipGap (first :: others) = first :: others := by
  rw [skipGap, List.dropWhile_cons_of_neg (by simp [h])]

/-- A line break behind a value. -/
theorem breaks_line (width : Nat) (rest : Text) : Breaks (newLine width ++ rest) :=
  ⟨List.replicate width ' ' ++ rest, .inr rfl⟩

/-- A comma behind a value. -/
theorem breaks_comma (rest : Text) : Breaks (',' :: rest) :=
  ⟨rest, .inl rfl⟩

/-- A value is read back at every place, as far as the depth allows. -/
def ReadsBack (indent : Nat) (value : Json) : Prop :=
  ∀ (width depth : Nat) (rest : Text), Breaks rest → (renderAt indent width value).length < depth →
    readValue depth (renderAt indent width value ++ rest) = .ok (value, rest)

/-- A value that is read back begins with neither a gap nor a closing bracket. -/
theorem ReadsBack.head {indent : Nat} {value : Json} (h : ReadsBack indent value) (width : Nat)
    {rest : Text} (hrest : Breaks rest) :
    ∃ first others, renderAt indent width value ++ rest = first :: others ∧
      isGap first = false ∧ first ≠ ']' := by
  obtain ⟨first, others, hhead, hgap, hbracket, -⟩ :=
    read_value_head (h width _ rest hrest (Nat.lt_succ_self _))
  exact ⟨first, others, hhead, hgap, hbracket⟩

section Items

variable {indent : Nat} (inner width : Nat) (rest : Text)

/-- The text from the first of some items to the closing bracket, and what follows. -/
def itemsText (inner width : Nat) (parts : List Text) (closing : Char) (rest : Text) : Text :=
  Text.joinWith (',' :: newLine inner) parts ++ (newLine width ++ closing :: rest)

/-- The text of a single item. -/
theorem items_text_single (part : Text) (closing : Char) :
    itemsText inner width [part] closing rest = part ++ (newLine width ++ closing :: rest) := by
  simp [itemsText, Text.joinWith]

/-- The text of more than one item. -/
theorem items_text_cons (first second : Text) (others : List Text) (closing : Char) :
    itemsText inner width (first :: second :: others) closing rest =
      first ++ ',' :: (newLine inner ++ itemsText inner width (second :: others) closing rest) := by
  simp only [itemsText, Text.join_with_cons_cons, List.append_assoc, List.cons_append]

/-- Behind the first item there is a comma or a line break. -/
theorem items_text_breaks (part : Text) (others : List Text) (closing : Char) :
    ∃ tail, itemsText inner width (part :: others) closing rest = part ++ tail ∧ Breaks tail := by
  cases others with
  | nil => exact ⟨_, items_text_single inner width rest part closing, breaks_line width _⟩
  | cons second others =>
      exact ⟨_, items_text_cons inner width rest part second others closing, breaks_comma _⟩

/-- The items of an array are read back. -/
theorem read_items_render {items : List Json} (hitems : ∀ item ∈ items, ReadsBack indent item)
    (hne : items ≠ []) (done : List Json) {depth : Nat}
    (hdepth : (itemsText inner width (renderItems indent inner items) ']' []).length < depth) :
    readItems depth done (itemsText inner width (renderItems indent inner items) ']' rest) =
      .ok (.array (done.reverse ++ items), rest) := by
  induction items generalizing done depth with
  | nil => exact absurd rfl hne
  | cons item items ih =>
      have hitem := hitems item (List.mem_cons_self ..)
      obtain ⟨less, rfl⟩ := Nat.exists_eq_succ_of_ne_zero (Nat.ne_zero_of_lt hdepth)
      cases items with
      | nil =>
          simp only [renderItems, items_text_single] at hdepth ⊢
          rw [List.length_append, List.length_append, List.length_singleton] at hdepth
          rw [readItems, hitem inner less _ (breaks_line width _) (by omega)]
          simp only [skip_gap_line (show isGap ']' = false from rfl), List.reverse_cons]
      | cons second others =>
          have hothers : ∀ item ∈ second :: others, ReadsBack indent item :=
            fun item hmem ↦ hitems item (List.mem_cons_of_mem _ hmem)
          obtain ⟨tail, htail, hbreaks⟩ := items_text_breaks inner width rest
            (renderAt indent inner second) (renderItems indent inner others) ']'
          obtain ⟨first, following, hhead, hgap, -⟩ := (hothers second (by simp)).head inner hbreaks
          have hskip : skipGap (newLine inner ++
                itemsText inner width (renderItems indent inner (second :: others)) ']' rest) =
              itemsText inner width (renderItems indent inner (second :: others)) ']' rest := by
            rw [renderItems, htail, hhead, skip_gap_line hgap]
          rw [renderItems, renderItems, items_text_cons, List.length_append, List.length_cons,
            List.length_append] at hdepth
          rw [renderItems, renderItems, items_text_cons, ← renderItems, readItems,
            hitem inner less _ (breaks_comma _) (by omega)]
          simp only [skip_gap_none (show isGap ',' = false from rfl), hskip]
          rw [ih hothers (by simp) (item :: done) (by rw [renderItems]; omega), List.reverse_cons,
            List.append_assoc, List.singleton_append]

/-- The text of a member of an object. -/
theorem render_members_cons (name : Text) (value : Json) (members : List (Text × Json)) :
    renderMembers indent inner ((name, value) :: members) =
      (quote name ++ ": ".toList ++ renderAt indent inner value) ::
        renderMembers indent inner members := rfl

/-- One member of an object is read back. -/
theorem read_member {name : Text} {value : Json} (hvalue : ReadsBack indent value)
    (done : List (Text × Json)) {depth : Nat} {tail : Text} (hbreaks : Breaks tail)
    (hdepth : (renderAt indent inner value).length < depth) :
    (∀ rest, skipGap tail = '\x7d' :: rest → readMembers (depth + 1) done
        (quote name ++ ": ".toList ++ renderAt indent inner value ++ tail) =
          .ok (.object (Entries.ofList ((name, value) :: done).reverse), rest)) ∧
      ∀ rest, skipGap tail = ',' :: rest → readMembers (depth + 1) done
        (quote name ++ ": ".toList ++ renderAt indent inner value ++ tail) =
          readMembers depth ((name, value) :: done) (skipGap rest) := by
  obtain ⟨first, following, hhead, hgap, -⟩ := hvalue.head inner hbreaks
  have htext : quote name ++ ": ".toList ++ renderAt indent inner value ++ tail =
      '"' :: (escape name ++ '"' :: ':' :: ' ' :: (renderAt indent inner value ++ tail)) := by
    show quote name ++ [':', ' '] ++ _ ++ _ = _
    simp only [quote, List.append_assoc, List.cons_append, List.nil_append]
  have hskip : skipGap (' ' :: (renderAt indent inner value ++ tail)) =
      renderAt indent inner value ++ tail := by
    rw [hhead]
    exact skip_gap_none hgap following
  have hread := hvalue inner depth tail hbreaks hdepth
  rw [htext]
  constructor
  · intro rest hrest
    simp only [readMembers, read_string_quote, skip_gap_none (show isGap ':' = false from rfl), hskip,
      hread, hrest]
  · intro rest hrest
    simp only [readMembers, read_string_quote, skip_gap_none (show isGap ':' = false from rfl), hskip,
      hread, hrest]

/-- The members of an object are read back. -/
theorem read_members_render {members : List (Text × Json)}
    (hmembers : ∀ member ∈ members, ReadsBack indent member.2) (hne : members ≠ [])
    (done : List (Text × Json)) {depth : Nat}
    (hdepth : (itemsText inner width (renderMembers indent inner members) '\x7d' []).length <
      depth) :
    readMembers depth done (itemsText inner width (renderMembers indent inner members) '\x7d' rest) =
      .ok (.object (Entries.ofList (done.reverse ++ members)), rest) := by
  induction members generalizing done depth with
  | nil => exact absurd rfl hne
  | cons member members ih =>
      obtain ⟨name, value⟩ := member
      have hvalue : ReadsBack indent value := hmembers (name, value) (List.mem_cons_self ..)
      obtain ⟨less, rfl⟩ := Nat.exists_eq_succ_of_ne_zero (Nat.ne_zero_of_lt hdepth)
      cases members with
      | nil =>
          have hclosing : 0 < (newLine width ++ ['\x7d']).length := by simp
          rw [render_members_cons, renderMembers, items_text_single, List.length_append,
            List.length_append] at hdepth
          rw [render_members_cons, renderMembers, items_text_single,
            (read_member inner hvalue done (breaks_line width _) (by omega)).1 rest
              (skip_gap_line rfl width rest), List.reverse_cons]
      | cons second others =>
          obtain ⟨other, found⟩ := second
          have hothers : ∀ member ∈ (other, found) :: others, ReadsBack indent member.2 :=
            fun member hmem ↦ hmembers member (List.mem_cons_of_mem _ hmem)
          have hskip : skipGap (newLine inner ++ itemsText inner width
                (renderMembers indent inner ((other, found) :: others)) '\x7d' rest) =
              itemsText inner width (renderMembers indent inner ((other, found) :: others)) '\x7d'
                rest := by
            obtain ⟨tail, htail, -⟩ := items_text_breaks inner width rest
              (quote other ++ ": ".toList ++ renderAt indent inner found)
              (renderMembers indent inner others) '\x7d'
            rw [render_members_cons, htail]
            exact skip_gap_line (show isGap '"' = false from rfl) _ _
          rw [render_members_cons, render_members_cons, items_text_cons, List.length_append,
            List.length_cons, List.length_append, List.length_append, List.length_append] at hdepth
          rw [render_members_cons, render_members_cons, items_text_cons, ← render_members_cons,
            (read_member inner hvalue done (breaks_comma _) (by omega)).2 _ (skip_gap_none rfl _),
            hskip, ih hothers (by simp) ((name, value) :: done) (by rw [render_members_cons]; omega),
            List.reverse_cons, List.append_assoc, List.singleton_append]

end Items

/-- The text of an array or of an object with parts. -/
theorem block_cons (opening closing : Char) (indent width : Nat) (part : Text) (parts : List Text)
    (rest : Text) :
    block opening closing indent width (part :: parts) ++ rest =
      opening :: (newLine (width + indent) ++
        itemsText (width + indent) width (part :: parts) closing rest) := by
  simp only [block, itemsText, List.isEmpty_cons, Bool.false_eq_true, if_false, List.append_assoc,
    List.cons_append, List.nil_append]

/-- The parts between brackets are shorter than the whole. -/
theorem items_text_lt {opening closing : Char} {indent width depth : Nat} {part : Text}
    {parts : List Text}
    (h : (block opening closing indent width (part :: parts)).length < depth + 1) :
    (itemsText (width + indent) width (part :: parts) closing []).length < depth := by
  have hblock := block_cons opening closing indent width part parts []
  rw [List.append_nil] at hblock
  have hline : 0 < (newLine (width + indent)).length := Nat.succ_pos _
  rw [hblock, List.length_cons, List.length_append] at h
  omega

/-- An array with items is read by reading its items. -/
theorem read_value_array {depth : Nat} {text first others}
    (htext : skipGap text = first :: others) (hfirst : first ≠ ']') :
    readValue (depth + 1) ('[' :: text) = readItems depth [] (first :: others) := by
  rw [readValue, htext]
  split
  · next hcons => exact absurd (List.cons.inj hcons).1 hfirst
  · rfl

/-- An object with members is read by reading its members. -/
theorem read_value_object {depth : Nat} {text others : Text}
    (htext : skipGap text = '"' :: others) :
    readValue (depth + 1) ('\x7b' :: text) = readMembers depth [] ('"' :: others) := by
  rw [readValue, htext]
  rfl

section Values

variable {indent : Nat}

/-- A value is read back if it is with one level of the depth left for its parts. -/
theorem reads_back_of_level {value : Json}
    (h : ∀ (width less : Nat) (rest : Text), Breaks rest →
      (renderAt indent width value).length < less + 1 →
      readValue (less + 1) (renderAt indent width value ++ rest) = .ok (value, rest)) :
    ReadsBack indent value := by
  intro width depth rest hrest hdepth
  obtain ⟨less, rfl⟩ := Nat.exists_eq_succ_of_ne_zero (Nat.ne_zero_of_lt hdepth)
  exact h width less rest hrest hdepth

/-- A value without parts is read back. -/
theorem reads_back_atom {value : Json} (h : ∀ (width : Nat) (rest : Text), Breaks rest →
    readAtom (renderAt indent width value ++ rest) = .ok (value, rest)) : ReadsBack indent value :=
  reads_back_of_level fun width less rest hrest _ ↦ read_value_atom (h width rest hrest) less

/-- A string is read back. -/
theorem reads_back_string (value : Text) : ReadsBack indent (.string value) := by
  refine reads_back_of_level fun width less rest _ _ ↦ ?_
  have htext : renderAt indent width (.string value) ++ rest =
      '"' :: (escape value ++ '"' :: rest) := by
    simp only [renderAt, quote, List.append_assoc, List.cons_append, List.nil_append]
  rw [htext, readValue, read_string_quote]
  rfl

/-- An array is read back if its items are. -/
theorem reads_back_array {items : List Json} (h : ∀ item ∈ items, ReadsBack indent item) :
    ReadsBack indent (.array items) := by
  refine reads_back_of_level fun width less rest _ hdepth ↦ ?_
  cases items with
  | nil => rfl
  | cons item items =>
      obtain ⟨tail, htail, hbreaks⟩ := items_text_breaks (width + indent) width rest
        (renderAt indent (width + indent) item) (renderItems indent (width + indent) items) ']'
      obtain ⟨first, others, hhead, hgap, hbracket⟩ :=
        (h item (List.mem_cons_self ..)).head (width + indent) hbreaks
      have hskip : skipGap (newLine (width + indent) ++ itemsText (width + indent) width
            (renderItems indent (width + indent) (item :: items)) ']' rest) =
          first :: others := by
        rw [renderItems, htail, hhead, skip_gap_line hgap]
      rw [renderAt, renderItems] at hdepth ⊢
      rw [block_cons, ← renderItems, read_value_array hskip hbracket, ← hhead, ← htail, ← renderItems]
      exact read_items_render (width + indent) width rest h (by simp) [] (items_text_lt hdepth)

/-- An object is read back if its members are and their names differ. -/
theorem reads_back_object {members : Entries Json} (hnames : members.names.Nodup)
    (h : ∀ member ∈ members, ReadsBack indent member.2) : ReadsBack indent (.object members) := by
  refine reads_back_of_level fun width less rest _ hdepth ↦ ?_
  cases members with
  | nil => rfl
  | cons member members =>
      obtain ⟨name, value⟩ := member
      obtain ⟨tail, htail, -⟩ := items_text_breaks (width + indent) width rest
        (quote name ++ ": ".toList ++ renderAt indent (width + indent) value)
        (renderMembers indent (width + indent) members) '\x7d'
      have hhead : ∃ others, itemsText (width + indent) width
          (renderMembers indent (width + indent) ((name, value) :: members)) '\x7d' rest =
          '"' :: others := by
        rw [render_members_cons, htail]
        exact ⟨_, rfl⟩
      have hread := read_members_render (width + indent) width rest h (by simp) []
        (items_text_lt (show (block '\x7b' '\x7d' indent width
          (renderMembers indent (width + indent) ((name, value) :: members))).length < less + 1
          from hdepth))
      rw [List.reverse_nil, List.nil_append, Entries.of_list_eq hnames] at hread
      obtain ⟨others, hhead⟩ := hhead
      rw [renderAt, render_members_cons, block_cons, ← render_members_cons, hhead,
        read_value_object (skip_gap_line rfl _ _), ← hhead, hread]

/-- Every well-formed value is read back. -/
theorem reads_back (indent : Nat) {value : Json} (h : WellFormed value) : ReadsBack indent value := by
  induction h with
  | null => exact reads_back_atom fun _ _ _ ↦ rfl
  | boolean value =>
      cases value with
      | false => exact reads_back_atom fun _ _ _ ↦ rfl
      | true => exact reads_back_atom fun _ _ _ ↦ rfl
  | integer value => exact reads_back_atom fun _ _ hrest ↦ read_atom_integer value hrest
  | float hnumber => exact reads_back_atom fun _ _ hrest ↦ read_atom_float hnumber hrest
  | string value => exact reads_back_string value
  | array _ ih => exact reads_back_array ih
  | object hnames _ ih => exact reads_back_object hnames ih

end Values

/-- A value that is read between two gaps is the value of the whole text. -/
theorem parse_of_read {before inner after : Text} {value : Json} (hbefore : IsGap before)
    (hafter : IsGap after)
    (hread : readValue ((before ++ (inner ++ after)).length + 1) (inner ++ after) =
      .ok (value, after)) : parse (before ++ (inner ++ after)) = .ok value := by
  obtain ⟨first, others, hhead, hfirst, -, hmark⟩ := read_value_head hread
  have hskip : skipGap (before ++ (inner ++ after)) = inner ++ after := by
    rw [hhead, skip_gap_append hbefore hfirst]
  have hend : skipGap after = [] := List.dropWhile_eq_nil_iff.mpr hafter
  have hstop : parseStop (before ++ (inner ++ after)) = .ok value := by
    unfold parseStop
    split
    · next hcons =>
        rw [hhead] at hcons
        cases before with
        | nil => exact absurd (List.cons.inj hcons).1 hmark
        | cons character before =>
            have hgap := hbefore character (List.mem_cons_self ..)
            rw [(List.cons.inj hcons).1] at hgap
            exact absurd hgap (by decide)
    · rw [hskip, hread]
      simp only [hend]
  unfold parse
  rw [hstop]

/-- The text of a well-formed value between two gaps is read as the value. -/
theorem parse_render (indent : Nat) {value : Json} (h : WellFormed value) {before after : Text}
    (hbefore : IsGap before) (hafter : IsGap after) (hbreaks : Breaks after) :
    parse (before ++ (render indent value ++ after)) = .ok value := by
  refine parse_of_read hbefore hafter (reads_back indent h 0 _ after hbreaks ?_)
  show (render indent value).length < _
  simp only [List.length_append]
  omega

/-- The text of a well-formed value with a line break behind it is read as the value. -/
theorem parse_dump {value : Json} (h : WellFormed value) :
    parse (dump value ++ ['\n']) = .ok value := by
  have hnone : IsGap [] := by simp [IsGap]
  exact parse_render 2 h hnone (is_gap_line 0) ⟨[], .inr rfl⟩

end Json

end LocalizedSite
