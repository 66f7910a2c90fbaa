import LocalizedSite.Proofs.Json.LineBreaks

/-!
# What a written value contains

A tag, such as the end of a script, can stand only in the strings and in the names of a value, since
everything else that is written for the value has no angle bracket. Strings are written with every
character of a tag as it is, so that a tag stands in the text of a value exactly if it stands in one of
its strings or names (`infix_render_iff`).
-/

namespace LocalizedSite

namespace Text

/-- A piece without some character stands on one side of the character. -/
theorem infix_append_cons_iff {mark front back : Text} {character : Char} (h : character ∉ mark) :
    mark <:+: front ++ character :: back ↔ mark <:+: front ∨ mark <:+: back := by
  constructor
  · rintro ⟨before, after, hsplit⟩
    rcases List.append_eq_append_iff.mp hsplit with ⟨inside, hfront, -⟩ | ⟨inside, hwhole, hback⟩
    · exact .inl ⟨before, inside, hfront.symm⟩
    · rcases List.append_eq_append_iff.mp hwhole with ⟨passed, hfront, hmark⟩ | ⟨passed, -, hinside⟩
      · cases inside with
        | nil => exact .inl ⟨before, [], by rw [hmark, hfront]; simp⟩
        | cons found inside =>
            rw [hmark, (List.cons.inj hback).1] at h
            exact absurd (List.mem_append_right _ (List.mem_cons_self ..)) h
      · rw [hinside] at hback
        cases passed with
        | nil =>
            cases mark with
            | nil => exact .inr List.nil_infix
            | cons found mark => exact absurd (by simp [(List.cons.inj hback).1]) h
        | cons found passed =>
            exact .inr ⟨passed, after, (List.cons.inj hback).2.symm⟩
  · rintro (⟨before, after, rfl⟩ | ⟨before, after, rfl⟩)
    · exact ⟨before, after ++ character :: back, by simp⟩
    · exact ⟨front ++ character :: before, after, by simp⟩

/-- A piece does not begin in a text without its first character. -/
theorem infix_append_iff {first : Char} {others gap back : Text} (h : first ∉ gap) :
    first :: others <:+: gap ++ back ↔ first :: others <:+: back := by
  induction gap with
  | nil => rfl
  | cons character gap ih =>
      rw [List.mem_cons, not_or] at h
      rw [List.cons_append, List.infix_cons_iff, ih h.2, or_iff_right]
      intro hprefix
      exact h.1 (List.cons_prefix_cons.mp hprefix).1

/-- A piece stands in front of a text without its characters or behind it. -/
theorem infix_append_foreign_iff {mark front middle back : Text} (hmark : mark ≠ []) (hmiddle : middle ≠ [])
    (h : ∀ character ∈ middle, character ∉ mark) :
    mark <:+: front ++ (middle ++ back) ↔ mark <:+: front ∨ mark <:+: back := by
  obtain ⟨character, gap, rfl⟩ := List.exists_cons_of_ne_nil hmiddle
  obtain ⟨first, others, rfl⟩ := List.exists_cons_of_ne_nil hmark
  obtain ⟨hcharacter, hgap⟩ := List.forall_mem_cons.mp h
  rw [List.cons_append, infix_append_cons_iff hcharacter,
    infix_append_iff fun hmem ↦ hgap first hmem (List.mem_cons_self ..)]

/-- A piece does not end in a text that is without its first character and begins with a character that
does not belong to it. -/
theorem infix_append_of_not_mem {first character : Char} {others front gap : Text}
    (hcharacter : character ∉ first :: others) (hgap : first ∉ gap) :
    first :: others <:+: front ++ character :: gap ↔ first :: others <:+: front := by
  rw [infix_append_cons_iff hcharacter, or_iff_left]
  exact fun hstands ↦ hgap (hstands.subset (List.mem_cons_self ..))

/-- A piece stands in a joined text where it stands in a part, if no character of the separator belongs
to it. -/
theorem infix_join_with_iff {first character : Char} {others gap : Text} {parts : List Text}
    (h : ∀ found ∈ character :: gap, found ∉ first :: others) :
    first :: others <:+: joinWith (character :: gap) parts ↔
      ∃ part ∈ parts, first :: others <:+: part := by
  have hcharacter := h character (List.mem_cons_self ..)
  have hgap : first ∉ gap := fun hmem ↦ h first (List.mem_cons_of_mem _ hmem) (List.mem_cons_self ..)
  induction parts with
  | nil => simp
  | cons part parts ih =>
      cases parts with
      | nil => simp
      | cons second parts =>
          rw [join_with_cons_cons, List.append_assoc, List.cons_append,
            infix_append_cons_iff hcharacter, infix_append_iff hgap]
          simp only [ih, List.mem_cons, exists_eq_or_imp]

end Text

namespace Json

/-- A text stands in a value as a string or as the name of a member. -/
inductive Mentions (text : Text) : Json → Prop
  | string : Mentions text (.string text)
  | name {members : List (Text × Json)} (h : text ∈ Entries.names members) :
      Mentions text (.object members)
  | item {items : List Json} {item : Json} (hmem : item ∈ items) (h : Mentions text item) :
      Mentions text (.array items)
  | member {members : List (Text × Json)} {member : Text × Json} (hmem : member ∈ members)
      (h : Mentions text member.2) : Mentions text (.object members)

/-- A text that begins with an angle bracket and has no character that is escaped or that stands between
the parts of a value. -/
structure IsTag (mark : Text) : Prop where
  begins : ∃ others, mark = '<' :: others
  plain : ∀ character ∈ mark, escapeCharacter character = [character]
  inside : ∀ character ∈ "\" \n,:[]\x7b\x7d".toList, character ∉ mark

variable {mark : Text}

/-- Characters that are written as they are stand in front of an escape if they stand in front of the
text. -/
theorem prefix_escape_iff (h : ∀ character ∈ mark, escapeCharacter character = [character])
    {text : Text} : mark <+: escape text ↔ mark <+: text := by
  induction mark generalizing text with
  | nil => simp
  | cons first mark ih =>
      cases text with
      | nil => rfl
      | cons character text =>
          have hfirst := h first (List.mem_cons_self ..)
          have hescape : escape (character :: text) = escapeCharacter character ++ escape text := rfl
          rcases escape_character_cases character with ⟨hplain, -⟩ | ⟨letters, hletters, -⟩
          · rw [hescape, hplain, List.singleton_append, List.cons_prefix_cons, List.cons_prefix_cons,
              ih fun other hmem ↦ h other (List.mem_cons_of_mem _ hmem)]
          · have hslash : first ≠ '\\' := by
              rintro rfl
              exact absurd hfirst (by decide)
            have hother : first ≠ character := by
              rintro rfl
              rw [hfirst] at hletters
              exact hslash (List.cons.inj hletters).1
            rw [hescape, hletters, List.cons_append, List.cons_prefix_cons, List.cons_prefix_cons]
            exact ⟨fun hboth ↦ absurd hboth.1 hslash, fun hboth ↦ absurd hboth.1 hother⟩

/-- A tag stands in the escape of a text if it stands in the text. -/
theorem infix_escape_iff (h : IsTag mark) {text : Text} : mark <:+: escape text ↔ mark <:+: text := by
  obtain ⟨others, rfl⟩ := h.begins
  induction text with
  | nil => rfl
  | cons character text ih =>
      have hescape : escape (character :: text) = escapeCharacter character ++ escape text := rfl
      rcases escape_character_cases character with ⟨hplain, -⟩ | ⟨letters, hletters, hall⟩
      · have hcons : escape (character :: text) = character :: escape text := by
          rw [hescape, hplain, List.singleton_append]
        rw [hcons, List.infix_cons_iff, List.infix_cons_iff, ih, ← hcons, prefix_escape_iff h.plain]
      · have hfirst : '<' ∉ '\\' :: letters := by
          rw [List.mem_cons, not_or]
          exact ⟨by decide, fun hmem ↦ absurd (List.all_eq_true.mp hall _ hmem) (by decide)⟩
        have hother : '<' ∉ [character] := by
          rw [List.mem_singleton]
          rintro rfl
          have hangle : ['<'] = '\\' :: letters := hletters
          exact absurd (List.cons.inj hangle).1 (by decide)
        have hlater : '<' :: others <:+: [character] ++ text ↔ '<' :: others <:+: text :=
          Text.infix_append_iff hother
        rw [hescape, hletters, Text.infix_append_iff hfirst, ih, ← hlater]
        rfl

/-- A tag stands in a string literal if it stands in the string. -/
theorem infix_quote_iff (h : IsTag mark) {text : Text} : mark <:+: quote text ↔ mark <:+: text := by
  obtain ⟨others, rfl⟩ := h.begins
  have hliteral : quote text = ['"'] ++ (escape text ++ '"' :: []) := rfl
  rw [hliteral, Text.infix_append_iff (by decide),
    Text.infix_append_of_not_mem (h.inside '"' (by decide)) List.not_mem_nil, infix_escape_iff h]

/-- A tag stands in a written member if it stands in the name or in the value. -/
theorem infix_member_iff (h : IsTag mark) {name value : Text} :
    mark <:+: quote name ++ ": ".toList ++ value ↔ mark <:+: name ∨ mark <:+: value := by
  obtain ⟨others, rfl⟩ := h.begins
  have hmember : quote name ++ ": ".toList ++ value = quote name ++ ':' :: ([' '] ++ value) := by
    rw [List.append_assoc]
    rfl
  rw [hmember, Text.infix_append_cons_iff (h.inside ':' (by decide)),
    Text.infix_append_iff (by decide), infix_quote_iff h]

/-- A tag stands between brackets if it stands in a part. -/
theorem infix_block_iff (h : IsTag mark) {opening closing : Char} (hopening : opening ≠ '<')
    (hclosing : closing ≠ '<') (indent width : Nat) {parts : List Text} :
    mark <:+: block opening closing indent width parts ↔ ∃ part ∈ parts, mark <:+: part := by
  obtain ⟨others, rfl⟩ := h.begins
  have hblank (count : Nat) : '<' ∉ List.replicate count ' ' := fun hmem ↦
    absurd (List.eq_of_mem_replicate hmem) (by decide)
  cases parts with
  | nil =>
      have hnothing : '<' ∉ [opening, closing] := by simp [hopening.symm, hclosing.symm]
      refine ⟨fun hstands ↦ absurd (hstands.subset (List.mem_cons_self ..)) hnothing, ?_⟩
      rintro ⟨part, hpart, -⟩
      exact absurd hpart List.not_mem_nil
  | cons part parts =>
      have hseparator : ∀ found ∈ ',' :: newLine (width + indent), found ∉ '<' :: others := by
        intro found hmem
        rcases List.mem_cons.mp hmem with rfl | hmem
        · exact h.inside ',' (by decide)
        · rcases List.mem_cons.mp hmem with rfl | hmem
          · exact h.inside '\n' (by decide)
          · rw [List.eq_of_mem_replicate hmem]
            exact h.inside ' ' (by decide)
      have hfront : '<' ∉ opening :: newLine (width + indent) := by
        simp [newLine, hopening.symm]
      have hback : '<' ∉ List.replicate width ' ' ++ [closing] := by
        simp [hclosing.symm]
      have hblock : block opening closing indent width (part :: parts) =
          (opening :: newLine (width + indent)) ++
            (Text.joinWith (',' :: newLine (width + indent)) (part :: parts) ++
              '\n' :: (List.replicate width ' ' ++ [closing])) := by
        simp [block, newLine]
      rw [hblock, Text.infix_append_iff hfront,
        Text.infix_append_of_not_mem (h.inside '\n' (by decide)) hback,
        Text.infix_join_with_iff hseparator]

/-- A tag stands neither in a value without strings and names nor in what is written for it without an
angle bracket. -/
theorem infix_atom_iff (h : IsTag mark) {text : Text} {atom : Json} (htext : '<' ∉ text)
    (hatom : ∀ name, ¬ Mentions name atom) :
    mark <:+: text ↔ ∃ name, Mentions name atom ∧ mark <:+: name := by
  obtain ⟨others, rfl⟩ := h.begins
  constructor
  · exact fun hstands ↦ absurd (hstands.subset (List.mem_cons_self ..)) htext
  · rintro ⟨name, hname, -⟩
    exact absurd hname (hatom name)

/-- A tag stands in a written value if it stands in one of its strings or names. -/
theorem infix_render_iff (h : IsTag mark) (indent : Nat) {value : Json} (hvalue : WellFormed value)
    (width : Nat) :
    mark <:+: renderAt indent width value ↔ ∃ text, Mentions text value ∧ mark <:+: text := by
  induction hvalue generalizing width with
  | null => exact infix_atom_iff h (show '<' ∉ "null".toList by decide) (fun _ hname ↦ nomatch hname)
  | boolean value =>
      cases value with
      | false =>
          exact infix_atom_iff h (show '<' ∉ "false".toList by decide) (fun _ hname ↦ nomatch hname)
      | true =>
          exact infix_atom_iff h (show '<' ∉ "true".toList by decide) (fun _ hname ↦ nomatch hname)
  | integer value =>
      exact infix_atom_iff h (fun hmem ↦ absurd (atom_character_of_mem_int hmem) (by decide))
        (fun _ hname ↦ nomatch hname)
  | float hnumber =>
      exact infix_atom_iff h (fun hmem ↦ absurd (atom_character_of_mem_float hnumber hmem) (by decide))
        (fun _ hname ↦ nomatch hname)
  | string value =>
      rw [renderAt, infix_quote_iff h]
      constructor
      · exact fun hstands ↦ ⟨value, .string, hstands⟩
      · rintro ⟨_, ⟨⟩, hstands⟩
        exact hstands
  | array _ ih =>
      rw [renderAt, infix_block_iff h (by decide) (by decide), render_items_eq]
      -- the tag has no line feed, blank or comma, so that it lies within one item
      constructor
      · rintro ⟨_, hpart, hstands⟩
        obtain ⟨item, hmem, rfl⟩ := List.mem_map.mp hpart
        obtain ⟨text, hitem, htext⟩ := (ih item hmem _).mp hstands
        exact ⟨text, .item hmem hitem, htext⟩
      · rintro ⟨text, hmention, htext⟩
        cases hmention with
        | item hmem hitem =>
            exact ⟨_, List.mem_map_of_mem hmem, (ih _ hmem _).mpr ⟨text, hitem, htext⟩⟩
  | object _ _ ih =>
      rw [renderAt, infix_block_iff h (by decide) (by decide), render_members_eq]
      constructor
      · rintro ⟨_, hpart, hstands⟩
        obtain ⟨member, hmem, rfl⟩ := List.mem_map.mp hpart
        rcases (infix_member_iff h).mp hstands with hname | hvalue
        · exact ⟨member.1, .name (List.mem_map_of_mem hmem), hname⟩
        · obtain ⟨text, hmember, htext⟩ := (ih member hmem _).mp hvalue
          exact ⟨text, .member hmem hmember, htext⟩
      · rintro ⟨text, hmention, htext⟩
        cases hmention with
        | name hname =>
            obtain ⟨member, hmem, rfl⟩ := List.mem_map.mp hname
            exact ⟨_, List.mem_map_of_mem hmem, (infix_member_iff h).mpr (.inl htext)⟩
        | member hmem hmember =>
            exact ⟨_, List.mem_map_of_mem hmem,
              (infix_member_iff h).mpr (.inr ((ih _ hmem _).mpr ⟨text, hmember, htext⟩))⟩

end Json

end LocalizedSite
