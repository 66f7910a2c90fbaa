import LocalizedSite.Proofs.Extract.Intact
import LocalizedSite.Proofs.Extract.Known

/-!
# Known placeholders in linked data

The strings of a block of linked data have known placeholders only if the block has, since no escape
other than one by a code unit makes a brace (`Decodes.all_known`). What is written for a value has no
other braces in a row than its strings and names (`all_known_render`), so a document whose linked data is
taken has known placeholders only (`linked_data_texts_known`).
-/

namespace LocalizedSite

open Placeholder

namespace Json

variable {known : Reference → Prop}

/-- A brace that is decoded was there. -/
theorem Decodes.head_brace {content text : Text} (h : Decodes content text)
    (hhead : text.head? = some '\x7b') : content.head? = some '\x7b' := by
  cases h with
  | nil => exact hhead
  | plain hslash h => exact hhead
  | @escape letter character content text hletter h =>
      obtain rfl : character = '\x7b' := by simpa using hhead
      unfold simpleEscape? at hletter
      split at hletter <;> simp at hletter

/-- Characters without a backslash in front are decoded to themselves. -/
theorem Decodes.begins_of_begins {content text : Text} (h : Decodes content text) {token : Text}
    (hslash : '\\' ∉ token) (hbegins : token <+: content) : token <+: text := by
  induction h generalizing token with
  | nil => exact hbegins
  | plain _ _ ih =>
      cases token with
      | nil => exact List.nil_prefix
      | cons first token =>
          obtain ⟨rfl, hrest⟩ := List.cons_prefix_cons.mp hbegins
          exact List.cons_prefix_cons.mpr
            ⟨rfl, ih (fun hmem ↦ hslash (List.mem_cons_of_mem _ hmem)) hrest⟩
  | escape hletter h ih =>
      cases token with
      | nil => exact List.nil_prefix
      | cons first token =>
          obtain ⟨rfl, -⟩ := List.cons_prefix_cons.mp hbegins
          exact absurd (List.mem_cons_self ..) hslash

/-- A decoded text has known placeholders only if the content of the literal has. -/
theorem Decodes.all_known {content text : Text} (h : Decodes content text)
    (hcontent : AllKnown known content) : AllKnown known text := by
  induction h with
  | nil => exact hcontent
  | @plain character content text hslash h ih =>
      obtain ⟨hhere, hrest⟩ := all_known_cons.mp hcontent
      refine all_known_cons.mpr ⟨fun hbraces ↦ ?_, ih hrest⟩
      have hfront : openBraces <+: character :: content := by
        obtain ⟨rest, hrest⟩ := hbraces
        obtain ⟨rfl, htext⟩ := List.cons.inj hrest
        have hhead := h.head_brace (by rw [← htext]; rfl)
        cases content with
        | nil => exact absurd hhead (by simp)
        | cons next content =>
            obtain rfl : next = '\x7b' := by simpa using hhead
            exact ⟨content, rfl⟩
      obtain ⟨placeholder, hknown, hbegins⟩ := hhere hfront
      refine ⟨placeholder, hknown, (Decodes.plain hslash h).begins_of_begins (fun hmem ↦ ?_) hbegins⟩
      exact absurd (inside_of_mem_known hknown hmem) (by decide)
  | @escape letter character content text hletter h ih =>
      have hrest : AllKnown known content :=
        (show AllKnown known (['\\', letter] ++ content) from hcontent).back
      refine all_known_cons.mpr ⟨fun hbraces ↦ ?_, ih hrest⟩
      obtain ⟨rest, hrest⟩ := hbraces
      obtain ⟨rfl, -⟩ := List.cons.inj hrest
      have hhead := (Decodes.escape hletter h).head_brace rfl
      exact absurd hhead (by simp)

/-- What a value mentions has known placeholders only, if the text has that was read as the value and
no escape by a code unit stands in it. -/
theorem all_known_of_mentions {text whole : Text} {value : Json} (h : parse whole = .ok value)
    (hescape : ¬ unitEscape <:+: whole) (hwhole : AllKnown known whole)
    (hmention : Mentions text value) : AllKnown known text := by
  obtain ⟨front, content, back, hcontent, rfl⟩ := literal_of_mentions h hmention
  have hliteral : AllKnown known (content ++ '"' :: back) := (all_known_cons.mp hwhole.back).2
  have hinside := hliteral.front (Extract.boundary_of_start rfl)
  exact (hcontent.decodes fun hpiece ↦ hescape (hpiece.trans ⟨front ++ ['"'], '"' :: back, by simp⟩)
    ).all_known hinside

/-- The characters of placeholders are not escaped. -/
theorem escape_character_inside {character : Char} (h : Extract.isInside character = true) :
    escapeCharacter character = [character] := by
  have hcontrol : ∀ code < 32, Extract.isInside (Char.ofNat code) = false := by decide
  unfold escapeCharacter
  split_ifs with hquote hslash hfeed hreturn htab hform hback hlow
  · exact absurd h (by rw [hquote]; decide)
  · exact absurd h (by rw [hslash]; decide)
  · exact absurd h (by rw [hfeed]; decide)
  · exact absurd h (by rw [hreturn]; decide)
  · exact absurd h (by rw [htab]; decide)
  · exact absurd h (by rw [hform]; decide)
  · exact absurd h (by rw [hback]; decide)
  · have hnot := hcontrol _ hlow
    rw [Char.ofNat_toNat, h] at hnot
    exact absurd hnot (by decide)
  · rfl

/-- The escape of a text has known placeholders only if the text has. -/
theorem all_known_escape {text : Text} (h : AllKnown known text) : AllKnown known (escape text) := by
  induction text with
  | nil => exact h
  | cons character text ih =>
      obtain ⟨hhere, hrest⟩ := all_known_cons.mp h
      have hescape : escape (character :: text) = escapeCharacter character ++ escape text := rfl
      rcases escape_character_cases character with ⟨hplain, -⟩ | ⟨letters, hletters, hall⟩
      · rw [hplain, List.singleton_append] at hescape
        have hwritten {token : Text} (htoken : ∀ found ∈ token, Extract.isInside found = true) :
            token <+: character :: escape text ↔ token <+: character :: text := by
          rw [← hescape]
          exact prefix_escape_iff fun found hmem ↦ escape_character_inside (htoken found hmem)
        rw [hescape]
        refine all_known_cons.mpr ⟨fun hbraces ↦ ?_, ih hrest⟩
        have hinside : ∀ found ∈ openBraces, Extract.isInside found = true :=
          List.all_eq_true.mp (show openBraces.all Extract.isInside = true by decide)
        obtain ⟨placeholder, hknown, hbegins⟩ := hhere ((hwritten hinside).mp hbraces)
        exact ⟨placeholder, hknown, (hwritten fun _ ↦ inside_of_mem_known hknown).mpr hbegins⟩
      · rw [hescape, hletters]
        refine (ih hrest).behind_plain ?_
        rw [List.mem_cons, not_or]
        exact ⟨by decide, fun hmem ↦ absurd (List.all_eq_true.mp hall _ hmem) (by decide)⟩

/-- A string literal has known placeholders only if the string has. -/
theorem all_known_quote {text : Text} (h : AllKnown known text) : AllKnown known (quote text) := by
  have hliteral : quote text = ['"'] ++ (escape text ++ (['"'] ++ [])) := rfl
  rw [hliteral]
  exact ((all_known_escape h).join (by decide) (by decide) (all_known_of_literal rfl)).behind_plain
    (by decide)

/-- Texts that are joined by characters other than braces have known placeholders only if each has. -/
theorem all_known_join_with {gap : Text} (hgap : '\x7b' ∉ gap) (hne : gap ≠ []) {parts : List Text}
    (h : ∀ part ∈ parts, AllKnown known part) : AllKnown known (Text.joinWith gap parts) := by
  induction parts with
  | nil => exact all_known_of_literal rfl
  | cons part parts ih =>
      obtain ⟨hpart, hparts⟩ := List.forall_mem_cons.mp h
      cases parts with
      | nil => simpa using hpart
      | cons second parts =>
          rw [Text.join_with_cons_cons, List.append_assoc]
          exact hpart.join hgap hne (ih hparts)

/-- Parts between brackets have known placeholders only if each of them has. -/
theorem all_known_block {opening closing : Char} (hclosing : closing ≠ '\x7b') (indent width : Nat)
    {parts : List Text} (h : ∀ part ∈ parts, AllKnown known part) :
    AllKnown known (block opening closing indent width parts) := by
  have hline (width : Nat) : '\x7b' ∉ newLine width := by
    simp [newLine, List.mem_replicate]
  unfold block
  split
  · refine all_known_of_literal (occurs_in_cons.mpr ⟨fun _ ↦ ?_, ?_⟩)
    · simpa using hclosing
    · exact occurs_in_of_not_mem (by simpa using hclosing.symm)
  · have hinside : AllKnown known (Text.joinWith (',' :: newLine (width + indent)) parts ++
        (newLine width ++ [closing])) := by
      refine AllKnown.join (all_known_join_with ?_ (by simp) h) (hline width) (by simp [newLine]) ?_
      · simp [hline]
      · exact all_known_of_literal (occurs_in_of_not_mem (by simpa using hclosing.symm))
    have hwhole := hinside.behind_plain (hline (width + indent))
    rw [List.cons_append, List.cons_append, List.cons_append, List.append_assoc, List.append_assoc]
    refine all_known_cons.mpr ⟨fun hbraces ↦ ?_, hwhole⟩
    exact absurd hbraces (not_begins_cons fun _ ↦ by simp [newLine])

/-- What is written for a value has known placeholders only if its strings and names have. -/
theorem all_known_render (indent : Nat) {value : Json} (hvalue : WellFormed value)
    (h : ∀ text, Mentions text value → AllKnown known text) (width : Nat) :
    AllKnown known (renderAt indent width value) := by
  have hatom {text : Text} (htext : '\x7b' ∉ text) : AllKnown known text :=
    all_known_of_literal (occurs_in_of_not_mem htext)
  induction hvalue generalizing width with
  | null => exact hatom (show '\x7b' ∉ "null".toList by decide)
  | boolean value =>
      cases value with
      | false => exact hatom (show '\x7b' ∉ "false".toList by decide)
      | true => exact hatom (show '\x7b' ∉ "true".toList by decide)
  | integer value => exact hatom fun hmem ↦ absurd (atom_character_of_mem_int hmem) (by decide)
  | float hnumber =>
      exact hatom fun hmem ↦ absurd (atom_character_of_mem_float hnumber hmem) (by decide)
  | string value => exact all_known_quote (h value .string)
  | array _ ih =>
      rw [renderAt]
      refine all_known_block (by decide) indent width fun part hpart ↦ ?_
      rw [render_items_eq] at hpart
      obtain ⟨item, hmem, rfl⟩ := List.mem_map.mp hpart
      exact ih item hmem (fun text hmention ↦ h text (.item hmem hmention)) _
  | object _ _ ih =>
      rw [renderAt]
      refine all_known_block (by decide) indent width fun part hpart ↦ ?_
      rw [render_members_eq] at hpart
      obtain ⟨member, hmem, rfl⟩ := List.mem_map.mp hpart
      have hvalue := ih member hmem (fun text hmention ↦ h text (.member hmem hmention))
      rw [List.append_assoc]
      exact (all_known_quote (h _ (.name (List.mem_map_of_mem hmem)))).join (by decide) (by decide)
        (hvalue _)

end Json

namespace Extract

open Json

section Templating

variable {scope : Text} {admits : Text → Prop}

/-- What a templated value mentions is admitted, from whatever keys, if the references to the texts taken
are. -/
def TemplatesTo (scope : Text) (admits : Text → Prop) (value : Json) : Prop :=
  ∀ keys, (∀ entry ∈ (templateValue scope keys value).2.taken,
      admits (Reference.text ⟨scope, entry.1⟩)) →
    ∀ text, Mentions text (templateValue scope keys value).1 → admits text

/-- What templated items mention is admitted. -/
theorem template_items_mention {items : List Json} (h : ∀ item ∈ items, TemplatesTo scope admits item)
    (keys : BlockKeys) (htaken : ∀ entry ∈ (templateItems scope keys items).2.taken,
      admits (Reference.text ⟨scope, entry.1⟩)) {text : Text} :
    (∃ item ∈ (templateItems scope keys items).1, Mentions text item) → admits text := by
  induction items generalizing keys with
  | nil =>
      rintro ⟨item, hmem, -⟩
      exact absurd hmem List.not_mem_nil
  | cons item items ih =>
      rw [template_items_cons] at htaken ⊢
      have hsuffix := template_items_suffix scope (templateValue scope keys item).2 items
      rintro ⟨found, hmem, hmention⟩
      rcases List.mem_cons.mp hmem with rfl | hmem
      · exact h item (List.mem_cons_self ..) keys
          (fun entry hentry ↦ htaken entry (hsuffix.subset hentry)) text hmention
      · exact ih (fun other hother ↦ h other (List.mem_cons_of_mem _ hother)) _ htaken
          ⟨found, hmem, hmention⟩

/-- What templated members mention is admitted, if the references put for members are. -/
theorem template_members_mention {members : List (Text × Json)}
    (h : ∀ member ∈ members, TemplatesTo scope admits member.2)
    (hnames : ∀ member ∈ members, admits member.1) {taken : Entries Text}
    (hput : ∀ name key, Entries.get? taken name = some key → admits (Reference.text ⟨scope, key⟩))
    (keys : BlockKeys) (htaken : ∀ entry ∈ (templateMembers scope taken keys members).2.taken,
      admits (Reference.text ⟨scope, entry.1⟩)) {text : Text} :
    (∃ member ∈ (templateMembers scope taken keys members).1,
      text = member.1 ∨ Mentions text member.2) → admits text := by
  induction members generalizing keys with
  | nil =>
      rintro ⟨member, hmem, -⟩
      exact absurd hmem List.not_mem_nil
  | cons member members ih =>
      obtain ⟨name, value⟩ := member
      obtain ⟨hvalue, hvalues⟩ := List.forall_mem_cons.mp h
      obtain ⟨hname, hothers⟩ := List.forall_mem_cons.mp hnames
      cases hget : Entries.get? taken name with
      | some key =>
          rw [template_members_of_some scope hget] at htaken ⊢
          rintro ⟨found, hmem, hmention⟩
          rcases List.mem_cons.mp hmem with rfl | hmem
          · rcases hmention with rfl | hmention
            · exact hname
            · obtain ⟨⟩ : Mentions text (.string (Reference.text ⟨scope, key⟩)) := hmention
              exact hput name key hget
          · exact ih hvalues hothers _ htaken ⟨found, hmem, hmention⟩
      | none =>
          rw [template_members_of_none scope hget] at htaken ⊢
          have hsuffix := template_members_suffix scope taken (templateValue scope keys value).2 members
          rintro ⟨found, hmem, hmention⟩
          rcases List.mem_cons.mp hmem with rfl | hmem
          · rcases hmention with rfl | hmention
            · exact hname
            · exact hvalue keys (fun entry hentry ↦ htaken entry (hsuffix.subset hentry)) text hmention
          · exact ih hvalues hothers _ htaken ⟨found, hmem, hmention⟩

/-- A templated value mentions what the value mentions and the references to the texts taken. -/
theorem templates_to {value : Json} (hvalue : WellFormed value)
    (h : ∀ text, Mentions text value → admits text) : TemplatesTo scope admits value := by
  induction hvalue with
  | null | boolean _ | integer _ | float _ | string _ => exact fun keys _ text hmention ↦ h text hmention
  | array _ ih =>
      intro keys htaken text hmention
      rw [template_value_array] at htaken hmention
      exact template_items_mention
        (fun item hmem ↦ ih item hmem fun text hitem ↦ h text (.item hmem hitem)) keys htaken
        (mentions_array.mp hmention)
  | @object members _ _ ih =>
      intro keys htaken text hmention
      rw [template_value_object] at htaken hmention
      have hsuffix := template_members_suffix scope (takeFields members keys textFields).1
        (takeFields members keys textFields).2 members
      refine template_members_mention
        (fun member hmem ↦ ih member hmem fun text hmember ↦ h text (.member hmem hmember))
        (fun member hmem ↦ h _ (.name (List.mem_map_of_mem hmem))) (fun name key hget ↦ ?_) _ htaken
        (mentions_object.mp hmention)
      obtain ⟨value, -, hentry⟩ := take_fields_spec.2 name key hget
      exact htaken _ (hsuffix.subset hentry)

end Templating

variable {known : Reference → Prop}

/-- The property of a text before its linked data is rewritten: known placeholders only, and no escape by
a code unit. -/
def IsClean (known : Reference → Prop) (text : Text) : Prop :=
  AllKnown known text ∧ ¬ unitEscape <:+: text

theorem is_local_clean : IsLocal known (IsClean known) :=
  is_local_all_known.and is_local_no_escape

/-- What is written for a block of linked data has known placeholders only. -/
theorem new_content_known {scope : Text} {number : Nat} {content : Text}
    (hknown : ∀ entry ∈ newTexts scope number content, IsKnown known (.reference ⟨scope, entry.1⟩))
    (h : IsClean known content) : AllKnown known (newContent scope number content) := by
  unfold newContent
  split
  · exact h.1
  · next value hparse =>
      have hwell := parse_well_formed hparse
      have htaken : ∀ entry ∈ (templateValue scope (startKeys number) value).2.taken,
          AllKnown known (Reference.text ⟨scope, entry.1⟩) := by
        intro entry hmem
        refine all_known_text (hknown entry ?_)
        simp only [newTexts, hparse]
        exact List.mem_reverse.mpr hmem
      have hmentions := templates_to hwell
        (fun text hmention ↦ all_known_of_mentions hparse h.2 h.1 hmention) (startKeys number) htaken
      have hrender := all_known_render blockIndent
        (template_value_well_formed scope hwell (startKeys number)) hmentions 0
      simp only
      split
      · exact h.1
      · have hbehind := hrender.join (show '\x7b' ∉ "\n    ".toList by decide) (by decide)
          (all_known_of_literal (show occursIn [] = false from rfl))
        rw [List.append_nil] at hbehind
        rw [List.append_assoc]
        exact hbehind.behind_plain (by decide)

/-- The texts of linked data are taken as texts of the page. -/
theorem linked_data_texts_taken (harvest : Harvest) (html : Text) :
    (linkedDataTexts harvest html).2.taken =
      ((scanLinkedData harvest.scope html).2.map fun entry ↦ ⟨.own, entry.1, entry.2⟩).reverse ++
        harvest.taken := by
  simp only [linkedDataTexts]
  generalize (scanLinkedData harvest.scope html).2 = taken
  induction taken generalizing harvest with
  | nil => rfl
  | cons entry taken ih =>
      rw [List.foldl_cons, ih]
      simp [Harvest.addPage]

/-- Taking the texts of linked data leaves known placeholders only. -/
theorem linked_data_texts_known {harvest : Harvest} {html : Text}
    (hknown : (linkedDataTexts harvest html).2.IsKnown known) (h : IsClean known html) :
    AllKnown known (linkedDataTexts harvest html).1 := by
  have hgathers : Harvest.Gathers .standard _ _ := linked_data_texts_gathers [] harvest html
  have hscope : (linkedDataTexts harvest html).2.scope = harvest.scope := hgathers.scope_eq
  have hgood : ∀ entry ∈ (scanLinkedData harvest.scope html).2,
      IsKnown known (.reference ⟨harvest.scope, entry.1⟩) := by
    intro entry hmem
    have htaking := hknown ⟨.own, entry.1, entry.2⟩ (by
      rw [linked_data_texts_taken]
      exact List.mem_append_left _ (List.mem_reverse.mpr (List.mem_map_of_mem hmem)))
    rwa [hscope] at htaking
  refine is_local_clean.rewrite_cuts is_local_all_known (fun _ htext ↦ htext.1) (by decide) (by decide)
    (by decide) (fun scan : BlockScan ↦ ∀ entry ∈ scan.taken,
      IsKnown known (.reference ⟨harvest.scope, entry.1⟩)) (fun scan slot hnext ↦ ?_)
    (fun scan slot hnext hcontent ↦ ?_) hgood h
  · rw [rewrite_block_eq] at hnext
    exact fun entry hmem ↦ hnext entry (List.mem_append_left _ hmem)
  · rw [rewrite_block_eq] at hnext ⊢
    exact ⟨_, [], by simp, new_content_known
      (fun entry hmem ↦ hnext entry (List.mem_append_right _ hmem)) hcontent, fun _ hrest ↦ hrest⟩

section Texts

/-- Every text taken so far from a block is longer than those that stay. -/
def BlockKeys.AreLong (keys : BlockKeys) : Prop :=
  ∀ entry ∈ keys.taken, shortLength < entry.2.length

/-- The texts taken from the fields of an object are long. -/
theorem take_fields_long (members : Entries Json) (fields : List Text) {keys : BlockKeys}
    (h : keys.AreLong) : (takeFields members keys fields).2.AreLong := by
  induction fields generalizing keys with
  | nil => exact h
  | cons field fields ih =>
      by_cases hfield : HasText members field
      · obtain ⟨text, hget, htext⟩ := hfield
        rw [take_fields_of_has hget htext]
        refine ih (List.forall_mem_cons.mpr ⟨?_, h⟩)
        simp only [isTranslatable, Bool.and_eq_true, decide_eq_true_eq] at htext
        exact htext.1.1.1.1.1
      · rw [take_fields_of_not hfield]
        exact ih h

mutual

/-- The texts taken from a value are long. -/
theorem template_value_long (scope : Text) {keys : BlockKeys} (h : keys.AreLong) :
    (value : Json) → (templateValue scope keys value).2.AreLong
  | .array items => template_items_long scope h items
  | .object members =>
      template_members_long scope _ (take_fields_long members textFields h) members
  | .null | .boolean _ | .integer _ | .float _ | .string _ => h

theorem template_items_long (scope : Text) {keys : BlockKeys} (h : keys.AreLong) :
    (items : List Json) → (templateItems scope keys items).2.AreLong
  | [] => h
  | item :: items => template_items_long scope (template_value_long scope h item) items

theorem template_members_long (scope : Text) (taken : Entries Text) {keys : BlockKeys}
    (h : keys.AreLong) :
    (members : List (Text × Json)) → (templateMembers scope taken keys members).2.AreLong
  | [] => h
  | (name, value) :: members => by
      simp only [templateMembers]
      split
      · exact template_members_long scope taken h members
      · exact template_members_long scope taken (template_value_long scope h value) members

end

/-- The texts taken from linked data are long. -/
theorem scan_linked_data_long (scope html : Text) :
    ∀ entry ∈ (scanLinkedData scope html).2, shortLength < entry.2.length := by
  intro entry hmem
  rw [scan_linked_data_blocks] at hmem
  obtain ⟨⟨piece, number⟩, -, hentry⟩ := List.mem_flatMap.mp hmem
  unfold newTexts at hentry
  split at hentry
  · exact absurd hentry List.not_mem_nil
  · next value _ =>
      have hstart : (startKeys number).AreLong := fun entry hnone ↦ absurd hnone List.not_mem_nil
      exact template_value_long scope hstart value entry (List.mem_reverse.mp hentry)

end Texts

end Extract

end LocalizedSite
