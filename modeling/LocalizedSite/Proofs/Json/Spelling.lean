import LocalizedSite.Proofs.Json.RoundTrip
import LocalizedSite.Proofs.Text.Weave

/-!
# JSON texts with open strings

A cut text spells a JSON value in which some strings are left open, if each of its occurrences is the
whole content of a string in the place of a value (`Spells`). Whatever is written for the occurrences
is read as these strings, as long as it is the content of a string literal (`Document.parse_text`).
-/

namespace LocalizedSite.Json

variable {α : Type}

/-- A value in which some strings are left open. -/
inductive Shape (α : Type) where
  /-- A value without parts. -/
  | atom (value : Json)
  /-- A string that is left open. -/
  | hole (occurrence : α)
  | array (items : List (Shape α))
  | object (members : List (Text × Shape α))

mutual

/-- The value with the given strings. -/
def Shape.fill (texts : α → Text) : Shape α → Json
  | .atom value => value
  | .hole occurrence => .string (texts occurrence)
  | .array items => .array (fillItems texts items)
  | .object members => .object (Entries.ofList (fillMembers texts members))

/-- The items of an array with the given strings. -/
def fillItems (texts : α → Text) : List (Shape α) → List Json
  | [] => []
  | item :: items => item.fill texts :: fillItems texts items

/-- The members of an object with the given strings. -/
def fillMembers (texts : α → Text) : List (Text × Shape α) → List (Text × Json)
  | [] => []
  | (name, value) :: members => (name, value.fill texts) :: fillMembers texts members

end

/-- A text that does not begin with anything by which a number could go on. -/
def Delimited (rest : Text) : Prop :=
  ∀ first others, rest = first :: others →
    Text.isLatinDigit first = false ∧ first ≠ '.' ∧ first ≠ 'e' ∧ first ≠ 'E'

/-- A text that is read as a value without parts. -/
def IsAtom (text : Text) (value : Json) : Prop :=
  ∀ rest, Delimited rest → readAtom (text ++ rest) = .ok (value, rest)

/-- A text that is read as a string between quotes. -/
def IsContent (content text : Text) : Prop :=
  ∀ opening rest, readString opening [] (content ++ '"' :: rest) = .ok (text, rest)

/-- A part of a JSON text. -/
inductive Part (α : Type) where
  | value (shape : Shape α)
  /-- The items of an array, up to the closing bracket. -/
  | items (items : List (Shape α))
  /-- The members of an object, up to the closing brace. -/
  | members (members : List (Text × Shape α))

/-- A cut text spells a part of a JSON text. Each of its occurrences is the whole content of a string
literal in the place of a value, and fits there. -/
inductive Spells (fits : α → Prop) : Part α → Cuts α → Prop
  | atom {text : Text} {value : Json} (h : IsAtom text value) :
      Spells fits (.value (.atom value)) (.plain text)
  | string {content text : Text} (h : IsContent content text) :
      Spells fits (.value (.atom (.string text))) (.plain ('"' :: (content ++ ['"'])))
  | hole {occurrence : α} (h : fits occurrence) :
      Spells fits (.value (.hole occurrence))
        ((Cuts.plain ['"']).append ((Cuts.single occurrence).append (Cuts.plain ['"'])))
  | emptyArray {gap : Text} (hgap : IsGap gap) :
      Spells fits (.value (.array [])) (.plain ('[' :: (gap ++ [']'])))
  | array {gap : Text} {items : List (Shape α)} {cuts : Cuts α} (hgap : IsGap gap)
      (h : Spells fits (.items items) cuts) :
      Spells fits (.value (.array items)) ((Cuts.plain ('[' :: gap)).append cuts)
  | emptyObject {gap : Text} (hgap : IsGap gap) :
      Spells fits (.value (.object [])) (.plain ('\x7b' :: (gap ++ ['\x7d'])))
  | object {gap : Text} {members : List (Text × Shape α)} {cuts : Cuts α} (hgap : IsGap gap)
      (h : Spells fits (.members members) cuts) :
      Spells fits (.value (.object members)) ((Cuts.plain ('\x7b' :: gap)).append cuts)
  | lastItem {item : Shape α} {cuts : Cuts α} {gap : Text} (h : Spells fits (.value item) cuts)
      (hgap : IsGap gap) :
      Spells fits (.items [item]) (cuts.append (Cuts.plain (gap ++ [']'])))
  | item {item : Shape α} {items : List (Shape α)} {cuts others : Cuts α} {before after : Text}
      (h : Spells fits (.value item) cuts) (hbefore : IsGap before) (hafter : IsGap after)
      (hothers : Spells fits (.items items) others) :
      Spells fits (.items (item :: items))
        (cuts.append ((Cuts.plain (before ++ ',' :: after)).append others))
  | lastMember {content name before after gap : Text} {value : Shape α} {cuts : Cuts α}
      (hname : IsContent content name) (hbefore : IsGap before) (hafter : IsGap after)
      (h : Spells fits (.value value) cuts) (hgap : IsGap gap) :
      Spells fits (.members [(name, value)])
        ((Cuts.plain ('"' :: (content ++ '"' :: (before ++ ':' :: after)))).append
          (cuts.append (Cuts.plain (gap ++ ['\x7d']))))
  | member {content name before after behind next : Text} {value : Shape α}
      {members : List (Text × Shape α)} {cuts others : Cuts α}
      (hname : IsContent content name) (hbefore : IsGap before) (hafter : IsGap after)
      (h : Spells fits (.value value) cuts) (hbehind : IsGap behind) (hnext : IsGap next)
      (hothers : Spells fits (.members members) others) :
      Spells fits (.members ((name, value) :: members))
        ((Cuts.plain ('"' :: (content ++ '"' :: (before ++ ':' :: after)))).append
          (cuts.append ((Cuts.plain (behind ++ ',' :: next)).append others)))

/-- A cut text spells a whole JSON document. -/
def Document (fits : α → Prop) (shape : Shape α) (cuts : Cuts α) : Prop :=
  ∃ before inner after, IsGap before ∧ IsGap after ∧ Spells fits (.value shape) inner ∧
    cuts = (Cuts.plain before).append (inner.append (Cuts.plain after))

/-- A text is read as a part of a JSON text. -/
def ReadsAs (texts : α → Text) (text : Text) : Part α → Prop
  | .value shape => ∀ depth rest, Delimited rest → text.length < depth →
      readValue depth (text ++ rest) = .ok (shape.fill texts, rest)
  | .items items => ∀ depth done rest, text.length < depth →
      readItems depth done (text ++ rest) = .ok (.array (done.reverse ++ fillItems texts items), rest)
  | .members members => ∀ depth done rest, text.length < depth →
      readMembers depth done (text ++ rest) =
        .ok (.object (Entries.ofList (done.reverse ++ fillMembers texts members)), rest)

/-- Characters by which no number could go on may stand in front of a delimiter. -/
theorem Delimited.append {front rest : Text} (hfront : ∀ character ∈ front,
      Text.isLatinDigit character = false ∧ character ≠ '.' ∧ character ≠ 'e' ∧ character ≠ 'E')
    (hrest : Delimited rest) : Delimited (front ++ rest) := by
  cases front with
  | nil => exact hrest
  | cons character front =>
      intro first others hcons
      rw [← (List.cons.inj hcons).1]
      exact hfront character (List.mem_cons_self ..)

/-- A gap in front of a delimiter delimits. -/
theorem Delimited.gap {gap : Text} (hgap : IsGap gap) {rest : Text} (hrest : Delimited rest) :
    Delimited (gap ++ rest) := by
  refine .append (fun character hmem ↦ ?_) hrest
  have hcharacter := hgap character hmem
  simp only [isGap, Bool.or_eq_true, beq_iff_eq] at hcharacter
  rcases hcharacter with ((rfl | rfl) | rfl) | rfl
  · decide
  · decide
  · decide
  · decide

/-- What begins with a delimiter is delimited. -/
theorem delimited_cons {first : Char}
    (h : Text.isLatinDigit first = false ∧ first ≠ '.' ∧ first ≠ 'e' ∧ first ≠ 'E') (others : Text) :
    Delimited (first :: others) := by
  intro found following hcons
  rw [← (List.cons.inj hcons).1]
  exact h

/-- Where the items of an array begin there is neither a gap nor the closing bracket. -/
theorem read_items_head {depth : Nat} {done : List Json} {text : Text} {found : Json × Text}
    (h : readItems depth done text = .ok found) :
    ∃ first others, text = first :: others ∧ isGap first = false ∧ first ≠ ']' := by
  cases depth with
  | zero => exact absurd h (by simp [readItems])
  | succ depth =>
      cases hread : readValue depth text with
      | error stop =>
          rw [readItems, hread] at h
          exact absurd h (by simp)
      | ok item =>
          obtain ⟨first, others, hhead, hgap, hbracket, -⟩ := read_value_head hread
          exact ⟨first, others, hhead, hgap, hbracket⟩

/-- The members of an object begin with a quote. -/
theorem read_members_head {depth : Nat} {done : List (Text × Json)} {text : Text}
    {found : Json × Text} (h : readMembers depth done text = .ok found) :
    ∃ others, text = '"' :: others := by
  cases depth with
  | zero => exact absurd h (by simp [readMembers])
  | succ depth =>
      unfold readMembers at h
      split at h
      · exact ⟨_, rfl⟩
      · exact absurd h (by simp)

variable {fits : α → Prop} {write texts : α → Text}

/-- The content of a literal encodes its string. -/
theorem IsContent.encodes {content text : Text} (h : IsContent content text) :
    ∃ units, Encodes content units ∧ settleUnits [] units.reverse = text := by
  obtain ⟨found, units, hfound, hencodes, hvalue⟩ := encodes_of_read_string (h [] [])
  obtain rfl := List.append_cancel_right hfound
  exact ⟨units, hencodes, by simpa using hvalue.symm⟩

/-- A string literal is read as its string. -/
theorem read_literal {content text : Text} (h : IsContent content text) (depth : Nat) (rest : Text) :
    readValue (depth + 1) ('"' :: (content ++ '"' :: rest)) = .ok (.string text, rest) := by
  rw [readValue, h]
  rfl

/-- One item of an array is read, with the comma or the closing bracket behind it. -/
theorem read_item {item : Shape α} {text behind : Text} (h : ReadsAs texts text (.value item))
    (hbehind : IsGap behind) (done : List Json) {depth : Nat} (hdepth : text.length < depth)
    (rest : Text) :
    readItems (depth + 1) done (text ++ (behind ++ ']' :: rest)) =
        .ok (.array (item.fill texts :: done).reverse, rest) ∧
      readItems (depth + 1) done (text ++ (behind ++ ',' :: rest)) =
        readItems depth (item.fill texts :: done) (skipGap rest) := by
  constructor
  · rw [readItems, h depth _ (.gap hbehind (delimited_cons (by decide) rest)) hdepth]
    simp only [skip_gap_append hbehind (show isGap ']' = false from rfl)]
  · rw [readItems, h depth _ (.gap hbehind (delimited_cons (by decide) rest)) hdepth]
    simp only [skip_gap_append hbehind (show isGap ',' = false from rfl)]

/-- One member of an object is read, with the comma or the closing brace behind it. -/
theorem read_named {content name before after text behind : Text} {value : Shape α}
    (hname : IsContent content name) (hbefore : IsGap before) (hafter : IsGap after)
    (h : ReadsAs texts text (.value value)) (hbehind : IsGap behind) (done : List (Text × Json))
    {depth : Nat} (hdepth : text.length < depth) (rest : Text) :
    readMembers (depth + 1) done ('"' :: (content ++ '"' :: (before ++ ':' :: (after ++ (text ++
        (behind ++ '\x7d' :: rest)))))) =
        .ok (.object (Entries.ofList ((name, value.fill texts) :: done).reverse), rest) ∧
      readMembers (depth + 1) done ('"' :: (content ++ '"' :: (before ++ ':' :: (after ++ (text ++
        (behind ++ ',' :: rest)))))) =
        readMembers depth ((name, value.fill texts) :: done) (skipGap rest) := by
  have hskip {closing : Text} (hclosing : Delimited closing) :
      skipGap (after ++ (text ++ closing)) = text ++ closing := by
    obtain ⟨first, others, hhead, hgap, -⟩ := read_value_head (h depth closing hclosing hdepth)
    rw [hhead, skip_gap_append hafter hgap]
  have hbrace : Delimited (behind ++ '\x7d' :: rest) := .gap hbehind (delimited_cons (by decide) rest)
  have hcomma : Delimited (behind ++ ',' :: rest) := .gap hbehind (delimited_cons (by decide) rest)
  constructor
  · simp only [readMembers, hname _ _, skip_gap_append hbefore (show isGap ':' = false from rfl),
      hskip hbrace, h depth _ hbrace hdepth,
      skip_gap_append hbehind (show isGap '\x7d' = false from rfl)]
  · simp only [readMembers, hname _ _, skip_gap_append hbefore (show isGap ':' = false from rfl),
      hskip hcomma, h depth _ hcomma hdepth,
      skip_gap_append hbehind (show isGap ',' = false from rfl)]

namespace ReadsAs

/-- What is read with one level of the depth left for its parts is read as a value. -/
theorem of_level {shape : Shape α} {text : Text}
    (h : ∀ less rest, Delimited rest → text.length < less + 1 →
      readValue (less + 1) (text ++ rest) = .ok (shape.fill texts, rest)) :
    ReadsAs texts text (.value shape) := by
  intro depth rest hrest hdepth
  obtain ⟨less, rfl⟩ := Nat.exists_eq_succ_of_ne_zero (Nat.ne_zero_of_lt hdepth)
  exact h less rest hrest hdepth

/-- A value without parts is read. -/
theorem atom {text : Text} {value : Json} (h : IsAtom text value) :
    ReadsAs texts text (.value (.atom value)) :=
  of_level fun less rest hrest _ ↦ read_value_atom (h rest hrest) less

/-- A string literal is read, also in the place of a string that is left open. -/
theorem literal {content text : Text} {shape : Shape α} (h : IsContent content text)
    (hshape : shape.fill texts = .string text) :
    ReadsAs texts ('"' :: (content ++ ['"'])) (.value shape) := by
  refine of_level fun less rest _ _ ↦ ?_
  rw [hshape, List.cons_append, List.append_assoc]
  exact read_literal h less rest

/-- An array without items is read. -/
theorem empty_array {gap : Text} (hgap : IsGap gap) :
    ReadsAs texts ('[' :: (gap ++ [']'])) (.value (.array [])) := by
  refine of_level fun less rest _ _ ↦ ?_
  rw [List.cons_append, List.append_assoc, readValue]
  simp only [List.singleton_append, skip_gap_append hgap (show isGap ']' = false from rfl)]
  rfl

/-- An array is read if its items are. -/
theorem array {gap text : Text} {items : List (Shape α)} (hgap : IsGap gap)
    (h : ReadsAs texts text (.items items)) :
    ReadsAs texts ('[' :: (gap ++ text)) (.value (.array items)) := by
  refine of_level fun less rest _ hdepth ↦ ?_
  rw [List.length_cons, List.length_append] at hdepth
  have hitems := h less [] rest (by omega)
  -- the gap is skipped as a whole, since what is read as items begins with no blank
  obtain ⟨first, others, hhead, hfirst, hbracket⟩ := read_items_head hitems
  rw [List.cons_append, List.append_assoc, hhead,
    read_value_array (skip_gap_append hgap hfirst others) hbracket, ← hhead]
  exact hitems

/-- An object without members is read. -/
theorem empty_object {gap : Text} (hgap : IsGap gap) :
    ReadsAs texts ('\x7b' :: (gap ++ ['\x7d'])) (.value (.object [])) := by
  refine of_level fun less rest _ _ ↦ ?_
  rw [List.cons_append, List.append_assoc, readValue]
  simp only [List.singleton_append, skip_gap_append hgap (show isGap '\x7d' = false from rfl)]
  rfl

/-- An object is read if its members are. -/
theorem object {gap text : Text} {members : List (Text × Shape α)} (hgap : IsGap gap)
    (h : ReadsAs texts text (.members members)) :
    ReadsAs texts ('\x7b' :: (gap ++ text)) (.value (.object members)) := by
  refine of_level fun less rest _ hdepth ↦ ?_
  rw [List.length_cons, List.length_append] at hdepth
  have hmembers := h less [] rest (by omega)
  obtain ⟨others, hhead⟩ := read_members_head hmembers
  rw [List.cons_append, List.append_assoc, hhead,
    read_value_object (skip_gap_append hgap (show isGap '"' = false from rfl) others), ← hhead]
  exact hmembers

/-- The last item is read up to the closing bracket. -/
theorem last_item {text gap : Text} {item : Shape α} (h : ReadsAs texts text (.value item))
    (hgap : IsGap gap) : ReadsAs texts (text ++ (gap ++ [']'])) (.items [item]) := by
  intro depth done rest hdepth
  obtain ⟨less, rfl⟩ := Nat.exists_eq_succ_of_ne_zero (Nat.ne_zero_of_lt hdepth)
  rw [List.length_append, List.length_append, List.length_singleton] at hdepth
  rw [List.append_assoc, List.append_assoc, List.singleton_append,
    (read_item h hgap done (by omega) rest).1, List.reverse_cons]
  rfl

/-- An item is read in front of the others, with the comma between them. -/
theorem item {text before after others : Text} {item : Shape α} {items : List (Shape α)}
    (h : ReadsAs texts text (.value item)) (hbefore : IsGap before) (hafter : IsGap after)
    (hothers : ReadsAs texts others (.items items)) :
    ReadsAs texts (text ++ (before ++ ',' :: after ++ others)) (.items (item :: items)) := by
  intro depth done rest hdepth
  obtain ⟨less, rfl⟩ := Nat.exists_eq_succ_of_ne_zero (Nat.ne_zero_of_lt hdepth)
  simp only [List.length_append, List.length_cons] at hdepth
  have hlater := hothers less (item.fill texts :: done) rest (by omega)
  obtain ⟨first, following, hhead, hfirst, -⟩ := read_items_head hlater
  have hskip : skipGap (after ++ (others ++ rest)) = others ++ rest := by
    rw [hhead, skip_gap_append hafter hfirst]
  simp only [List.append_assoc, List.cons_append]
  rw [(read_item h hbefore done (by omega) _).2, hskip, hlater, List.reverse_cons, List.append_assoc]
  rfl

section Members

variable {content name before after text : Text} {value : Shape α}

/-- The last member is read up to the closing brace. -/
theorem last_member {gap : Text} (hname : IsContent content name) (hbefore : IsGap before)
    (hafter : IsGap after) (h : ReadsAs texts text (.value value)) (hgap : IsGap gap) :
    ReadsAs texts ('"' :: (content ++ '"' :: (before ++ ':' :: after)) ++ (text ++ (gap ++ ['\x7d'])))
      (.members [(name, value)]) := by
  intro depth done rest hdepth
  obtain ⟨less, rfl⟩ := Nat.exists_eq_succ_of_ne_zero (Nat.ne_zero_of_lt hdepth)
  simp only [List.length_append, List.length_cons] at hdepth
  simp only [List.append_assoc, List.cons_append, List.nil_append]
  rw [(read_named hname hbefore hafter h hgap done (by omega) rest).1, List.reverse_cons]
  rfl

/-- A member is read in front of the others, with the comma between them. -/
theorem member {behind next others : Text} {members : List (Text × Shape α)}
    (hname : IsContent content name) (hbefore : IsGap before) (hafter : IsGap after)
    (h : ReadsAs texts text (.value value)) (hbehind : IsGap behind) (hnext : IsGap next)
    (hothers : ReadsAs texts others (.members members)) :
    ReadsAs texts ('"' :: (content ++ '"' :: (before ++ ':' :: after)) ++
      (text ++ (behind ++ ',' :: next ++ others))) (.members ((name, value) :: members)) := by
  intro depth done rest hdepth
  obtain ⟨less, rfl⟩ := Nat.exists_eq_succ_of_ne_zero (Nat.ne_zero_of_lt hdepth)
  simp only [List.length_append, List.length_cons] at hdepth
  have hlater := hothers less ((name, value.fill texts) :: done) rest (by omega)
  obtain ⟨following, hhead⟩ := read_members_head hlater
  have hskip : skipGap (next ++ (others ++ rest)) = others ++ rest := by
    rw [hhead, skip_gap_append hnext (show isGap '"' = false from rfl)]
  simp only [List.append_assoc, List.cons_append]
  rw [(read_named hname hbefore hafter h hbehind done (by omega) _).2, hskip, hlater,
    List.reverse_cons, List.append_assoc]
  rfl

end Members

end ReadsAs

/-- What is spelled is read with the strings that are written for the occurrences. -/
theorem Spells.reads (hwrite : ∀ occurrence, fits occurrence →
      IsContent (write occurrence) (texts occurrence)) {part : Part α} {cuts : Cuts α}
    (h : Spells fits part cuts) : ReadsAs texts (cuts.text write) part := by
  induction h with
  | atom h =>
      rw [Cuts.text_plain]
      exact .atom h
  | string h =>
      rw [Cuts.text_plain]
      exact .literal h rfl
  | @hole occurrence h =>
      simp only [Cuts.text_append, Cuts.text_plain, Cuts.text_single]
      exact .literal (hwrite occurrence h) rfl
  | emptyArray hgap =>
      rw [Cuts.text_plain]
      exact .empty_array hgap
  | array hgap _ ih =>
      rw [Cuts.text_append, Cuts.text_plain]
      exact .array hgap ih
  | emptyObject hgap =>
      rw [Cuts.text_plain]
      exact .empty_object hgap
  | object hgap _ ih =>
      rw [Cuts.text_append, Cuts.text_plain]
      exact .object hgap ih
  | lastItem _ hgap ih =>
      rw [Cuts.text_append, Cuts.text_plain]
      exact .last_item ih hgap
  | item _ hbefore hafter _ ih ihOthers =>
      rw [Cuts.text_append, Cuts.text_append, Cuts.text_plain]
      exact .item ih hbefore hafter ihOthers
  | lastMember hname hbefore hafter _ hgap ih =>
      rw [Cuts.text_append, Cuts.text_append, Cuts.text_plain, Cuts.text_plain]
      exact .last_member hname hbefore hafter ih hgap
  | member hname hbefore hafter _ hbehind hnext _ ih ihOthers =>
      rw [Cuts.text_append, Cuts.text_append, Cuts.text_append, Cuts.text_plain, Cuts.text_plain]
      exact .member hname hbefore hafter ih hbehind hnext ihOthers

/-- A document is read with the strings that are written for its occurrences. -/
theorem Document.parse_text (hwrite : ∀ occurrence, fits occurrence →
      IsContent (write occurrence) (texts occurrence)) {shape : Shape α} {cuts : Cuts α}
    (h : Document fits shape cuts) : parse (cuts.text write) = .ok (shape.fill texts) := by
  obtain ⟨before, inner, after, hbefore, hafter, hinner, rfl⟩ := h
  have hdelimited : Delimited after := by
    rw [← List.append_nil after]
    exact .gap hafter fun _ _ hcons ↦ absurd hcons (by simp)
  have hread := hinner.reads hwrite ((before ++ (inner.text write ++ after)).length + 1) after
    hdelimited (by simp only [List.length_append]; omega)
  simpa using parse_of_read hbefore hafter hread

end LocalizedSite.Json
