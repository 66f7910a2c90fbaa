import LocalizedSite.Proofs.Json.Accepted
import LocalizedSite.Proofs.Json.Mention

/-!
# String literals of a text

Every string and every name of a value that is read from a text stands in the text as the content of a
string literal (`literal_of_mentions`). A content without escapes by code units is read character by
character (`Decodes`).
-/

namespace LocalizedSite.Json

/-- A content is read as a text one character after the other, each as it stands or by the letter of an
escape. -/
inductive Decodes : Text → Text → Prop
  | nil : Decodes [] []
  | plain {character : Char} {content text : Text} (hslash : character ≠ '\\')
      (h : Decodes content text) : Decodes (character :: content) (character :: text)
  | escape {letter character : Char} {content text : Text}
      (hletter : simpleEscape? letter = some character) (h : Decodes content text) :
      Decodes ('\\' :: letter :: content) (character :: text)

/-- The beginning of an escape by a code unit. -/
def unitEscape : Text := ['\\', 'u']

/-- A content is decoded unless it has an escape by a code unit. -/
theorem Encodes.decodes {content : Text} {units : List Nat} (h : Encodes content units)
    (hescape : ¬ unitEscape <:+: content) :
    ∃ text : Text, units = text.map Char.toNat ∧ Decodes content text := by
  induction h with
  | nil => exact ⟨[], rfl, .nil⟩
  | unit => exact absurd (List.prefix_append unitEscape _).isInfix hescape
  | @escape letter character content units _ hletter _ ih =>
      obtain ⟨text, rfl, hdecodes⟩ := ih fun hpiece ↦
        hescape (hpiece.trans (List.suffix_append ['\\', letter] content).isInfix)
      exact ⟨character :: text, rfl, .escape hletter hdecodes⟩
  | @plain character content units _ hslash _ _ ih =>
      obtain ⟨text, rfl, hdecodes⟩ := ih fun hpiece ↦ hescape (hpiece.trans (List.suffix_cons ..).isInfix)
      exact ⟨character :: text, rfl, .plain hslash hdecodes⟩

/-- The content of a literal without escapes by code units is decoded. -/
theorem IsContent.decodes {content text : Text} (h : IsContent content text)
    (hescape : ¬ unitEscape <:+: content) : Decodes content text := by
  obtain ⟨units, hencodes, rfl⟩ := h.encodes
  obtain ⟨text, rfl, hdecodes⟩ := hencodes.decodes hescape
  rwa [← List.append_nil (List.reverse _), settle_units_text]

/-- What is read as a value without parts is no string. -/
theorem not_mentions_of_read_atom {text rest : Text} {value : Json}
    (h : readAtom text = .ok (value, rest)) (name : Text) : ¬ Mentions name value := by
  have hliterals : ∀ literal ∈ literals, ¬ Mentions name literal.2 := by
    intro literal hmem hmention
    simp only [literals, List.mem_cons, List.not_mem_nil, or_false] at hmem
    rcases hmem with rfl | rfl | rfl | rfl | rfl | rfl <;> cases hmention
  rcases read_atom_cases h with ⟨literal, hmem, -⟩ | hnumber
  · exact hliterals _ hmem
  · intro hmention
    rcases read_number_shape hnumber with ⟨number, rfl⟩ | ⟨number, rfl, -⟩ <;> cases hmention

/-- An array mentions what its items mention. -/
theorem mentions_array {text : Text} {items : List Json} :
    Mentions text (.array items) ↔ ∃ item ∈ items, Mentions text item := by
  constructor
  · rintro ⟨⟩
    exact ⟨_, ‹_›, ‹_›⟩
  · rintro ⟨item, hmem, h⟩
    exact .item hmem h

/-- An object mentions the names of its members and what their values mention. -/
theorem mentions_object {text : Text} {members : List (Text × Json)} :
    Mentions text (.object members) ↔
      ∃ member ∈ members, text = member.1 ∨ Mentions text member.2 := by
  constructor
  · intro h
    cases h with
    | name hname =>
        obtain ⟨member, hmem, rfl⟩ := List.mem_map.mp hname
        exact ⟨member, hmem, .inl rfl⟩
    | member hmem h => exact ⟨_, hmem, .inr h⟩
  · rintro ⟨member, hmem, rfl | h⟩
    · exact .name (List.mem_map_of_mem hmem)
    · exact .member hmem h

/-- The values of a part mention a text, or it is the name of a member. -/
def PartMentions {α : Type} (texts : α → Text) (text : Text) : Part α → Prop
  | .value shape => Mentions text (shape.fill texts)
  | .items items => ∃ item ∈ fillItems texts items, Mentions text item
  | .members members => ∃ member ∈ fillMembers texts members,
      text = member.1 ∨ Mentions text member.2

/-- A text stands in another one as a string literal. -/
def HasLiteral (text whole : Text) : Prop :=
  ∃ front content back, IsContent content text ∧ whole = front ++ '"' :: (content ++ '"' :: back)

/-- A literal of a piece is one of the whole text. -/
theorem HasLiteral.within {text piece whole : Text} (h : HasLiteral text piece) (before after : Text)
    (hwhole : whole = before ++ (piece ++ after)) : HasLiteral text whole := by
  obtain ⟨front, content, back, hcontent, rfl⟩ := h
  exact ⟨before ++ front, content, back ++ after, hcontent, by rw [hwhole]; simp⟩

/-- The names and the strings of what is spelled without open strings stand in the text as
literals. -/
theorem Spells.literal_of_mentions {part : Part Unit} {cuts : Cuts Unit}
    (h : Spells (fun _ ↦ False) part cuts) {text : Text}
    (hmention : PartMentions (fun _ ↦ []) text part) : HasLiteral text (cuts.text fun _ ↦ []) := by
  induction h with
  | @atom atom value h =>
      have hread := h [] (by simp [Delimited])
      have hvalue : Mentions text value := hmention
      exact absurd hvalue (not_mentions_of_read_atom hread text)
  | @string content found h =>
      obtain ⟨⟩ : Mentions text (.string found) := hmention
      exact ⟨[], content, [], h, rfl⟩
  | hole h => exact absurd h id
  | emptyArray hgap =>
      obtain ⟨item, hmem, -⟩ := mentions_array.mp (show Mentions text (.array []) from hmention)
      exact absurd hmem List.not_mem_nil
  | @array gap items cuts hgap h ih =>
      have hitems := mentions_array.mp (show Mentions text (.array (fillItems _ items)) from hmention)
      exact (ih hitems).within ('[' :: gap) [] (by simp)
  | emptyObject hgap =>
      obtain ⟨member, hmem, -⟩ := mentions_object.mp (show Mentions text (.object []) from hmention)
      exact absurd hmem List.not_mem_nil
  | @object gap members cuts hgap h ih =>
      obtain ⟨member, hmem, hmember⟩ := mentions_object.mp
        (show Mentions text (.object (Entries.ofList (fillMembers _ members))) from hmention)
      exact (ih ⟨member, Entries.mem_of_list hmem, hmember⟩).within ('\x7b' :: gap) [] (by simp)
  | @lastItem item cuts gap h hgap ih =>
      obtain ⟨item, hmem, hitem⟩ := hmention
      obtain rfl := List.mem_singleton.mp hmem
      exact (ih hitem).within [] (gap ++ [']']) (by simp)
  | @item item items cuts others before after h hbefore hafter hothers ih ihOthers =>
      obtain ⟨item, hmem, hitem⟩ := hmention
      rcases List.mem_cons.mp hmem with rfl | hmem
      · exact (ih hitem).within [] _ (by rw [Cuts.text_append]; rfl)
      · refine (ihOthers ⟨item, hmem, hitem⟩).within
          ((cuts.text fun _ ↦ []) ++ (before ++ ',' :: after)) [] (by simp)
  | @lastMember content name before after gap value cuts hname hbefore hafter h hgap ih =>
      obtain ⟨member, hmem, hmember⟩ := hmention
      obtain rfl := List.mem_singleton.mp hmem
      rcases hmember with rfl | hmember
      · exact ⟨[], content, _, hname, by simp; rfl⟩
      · exact (ih hmember).within ('"' :: (content ++ '"' :: (before ++ ':' :: after)))
          (gap ++ ['\x7d']) (by simp)
  | @member content name before after behind next value members cuts others hname hbefore hafter h
      hbehind hnext hothers ih ihOthers =>
      obtain ⟨member, hmem, hmember⟩ := hmention
      rcases List.mem_cons.mp hmem with rfl | hmem
      · rcases hmember with rfl | hmember
        · exact ⟨[], content, _, hname, by simp; rfl⟩
        · exact (ih hmember).within ('"' :: (content ++ '"' :: (before ++ ':' :: after)))
            ((behind ++ ',' :: next) ++ others.text fun _ ↦ []) (by simp)
      · exact (ihOthers ⟨member, hmem, hmember⟩).within
          ('"' :: (content ++ '"' :: (before ++ ':' :: after)) ++
            ((cuts.text fun _ ↦ []) ++ (behind ++ ',' :: next))) [] (by simp)

/-- What a value mentions stands in the text that was read as the value, as a literal. -/
theorem literal_of_mentions {text whole : Text} {value : Json} (h : parse whole = .ok value)
    (hmention : Mentions text value) : HasLiteral text whole := by
  obtain ⟨shape, before, after, inner, -, -, hspells, rfl, htext⟩ := spells_of_parse h
  exact (hspells.literal_of_mentions hmention).within before after htext

end LocalizedSite.Json
