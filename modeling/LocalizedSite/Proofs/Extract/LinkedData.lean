import LocalizedSite.Proofs.Extract.Framing
import LocalizedSite.Proofs.Extract.Gathering
import LocalizedSite.Proofs.Text.Numeral
import Mathlib.Data.List.Nodup

/-!
# The keys of linked data

The texts of the blocks of linked data are taken under keys that name the block, the field and the
number within the block. `scan_linked_data_keys` says that the blocks and the texts of each block are
numbered one after the other, so that no key comes twice, and `linked_data_texts_gathers` that the
pass takes its texts under these keys in order.
-/

namespace LocalizedSite.Extract

open Harvest

/-- The key of a text in a block of linked data. -/
def linkedDataKey (block : Nat) (field : Text) (number : Nat) : Text :=
  "jsonld_".toList ++ Text.ofNat block ++ '_' :: field ++ '_' :: Text.ofNat number

/-- The keys of one block: its texts are numbered from one in the order of their fields. -/
def blockKeys (block : Nat) (fields : List Text) : List Text :=
  (fields.zipIdx 1).map fun (field, number) ↦ linkedDataKey block field number

/-- The keys of all blocks, which are numbered from one. -/
def linkedDataKeys (blocks : List (List Text)) : List Text :=
  (blocks.zipIdx 1).flatMap fun (fields, block) ↦ blockKeys block fields

/-- A key tells its block and its number. -/
theorem linked_data_key_injective {block other : Nat} {field second : Text} {number index : Nat}
    (h : linkedDataKey block field number = linkedDataKey other second index) :
    block = other ∧ number = index := by
  obtain ⟨hfront, hnumber⟩ := Text.append_of_nat_inj (by decide) h
  simp only [List.append_assoc] at hfront
  obtain ⟨hblock, -⟩ := Text.of_nat_append_inj (by decide) (List.append_cancel_left hfront)
  exact ⟨hblock, hnumber⟩

/-- A key of a block names it. -/
theorem mem_block_keys {block : Nat} {fields : List Text} {key : Text}
    (h : key ∈ blockKeys block fields) :
    ∃ field ∈ fields, ∃ number, key = linkedDataKey block field number := by
  obtain ⟨⟨field, number⟩, hmem, rfl⟩ := List.mem_map.mp h
  exact ⟨field, List.fst_mem_of_mem_zipIdx hmem, number, rfl⟩

/-- A key of linked data is the key of some block. -/
theorem mem_linked_data_keys {blocks : List (List Text)} {key : Text}
    (h : key ∈ linkedDataKeys blocks) :
    ∃ fields ∈ blocks, ∃ block, ∃ field ∈ fields, ∃ number,
      key = linkedDataKey block field number := by
  obtain ⟨⟨fields, block⟩, hmem, hkey⟩ := List.mem_flatMap.mp h
  obtain ⟨field, hfield, number, rfl⟩ := mem_block_keys hkey
  exact ⟨fields, List.fst_mem_of_mem_zipIdx hmem, block, field, hfield, number, rfl⟩

/-- Items that are numbered one after the other have different numbers. -/
theorem pairwise_number_ne {α : Type} (items : List α) (start : Nat) :
    (items.zipIdx start).Pairwise fun first second ↦ first.2 ≠ second.2 := by
  have hnodup : ((items.zipIdx start).map Prod.snd).Nodup := by
    rw [List.zipIdx_map_snd]
    exact List.nodup_range'
  exact List.pairwise_map.mp hnodup

/-- No key of linked data comes twice. -/
theorem nodup_linked_data_keys (blocks : List (List Text)) : (linkedDataKeys blocks).Nodup := by
  refine List.nodup_flatMap.mpr ⟨fun ⟨fields, block⟩ _ ↦ ?_, ?_⟩
  · refine List.pairwise_map.mpr ((pairwise_number_ne fields 1).imp fun hne heq ↦ ?_)
    exact hne (linked_data_key_injective heq).2
  · refine (pairwise_number_ne blocks 1).imp fun hne key hfirst hsecond ↦ ?_
    obtain ⟨field, -, number, rfl⟩ := mem_block_keys hfirst
    obtain ⟨second, -, index, heq⟩ := mem_block_keys hsecond
    exact hne (linked_data_key_injective heq).1

/-- The numbering belongs to a block, and its texts were taken under the keys of some fields. -/
structure BlockKeys.Keyed (block : Nat) (keys : BlockKeys) (fields : List Text) : Prop where
  beginning_eq : keys.beginning = "jsonld_".toList ++ Text.ofNat block
  count_eq : keys.count = fields.length
  fields_known : ∀ field ∈ fields, field ∈ textFields
  keys_eq : keys.taken.reverse.map Prod.fst = blockKeys block fields

variable {block : Nat}

/-- Taking a text of a field adds the field. -/
theorem BlockKeys.Keyed.take {keys : BlockKeys} {fields : List Text} (h : keys.Keyed block fields)
    {field : Text} (hfield : field ∈ textFields) (value : Text) :
    (keys.take field value).2.Keyed block (fields ++ [field]) := by
  refine ⟨h.beginning_eq, ?_, ?_, ?_⟩
  · simp [BlockKeys.take, h.count_eq]
  · intro other hmem
    rcases List.mem_append.mp hmem with hmem | hmem
    · exact h.fields_known other hmem
    · exact List.mem_singleton.mp hmem ▸ hfield
  · have hkey : (keys.take field value).1 = linkedDataKey block field (1 + fields.length) := by
      rw [BlockKeys.take, h.beginning_eq, h.count_eq, Nat.add_comm]
      rfl
    show ((((keys.take field value).1, value) :: keys.taken).reverse.map Prod.fst) = _
    rw [List.reverse_cons, List.map_append, h.keys_eq, hkey, blockKeys, blockKeys,
      List.zipIdx_append, List.map_append]
    rfl

/-- The numbering belongs to a block, and its texts were taken under the keys of the block. -/
def BlockKeys.IsKeyed (block : Nat) (keys : BlockKeys) : Prop :=
  ∃ fields, keys.Keyed block fields

/-- Taking the fields of an object keeps the numbering of the block. -/
theorem take_fields_keyed (members : Entries Json) {fields : List Text}
    (hfields : ∀ field ∈ fields, field ∈ textFields) {keys : BlockKeys} (h : keys.IsKeyed block) :
    (takeFields members keys fields).2.IsKeyed block := by
  induction fields generalizing keys with
  | nil => exact h
  | cons field fields ih =>
      have hothers : ∀ other ∈ fields, other ∈ textFields := fun other hmem ↦
        hfields other (List.mem_cons_of_mem _ hmem)
      obtain ⟨earlier, hkeyed⟩ := h
      simp only [takeFields]
      split
      · next value _ =>
          split
          · exact ih hothers ⟨_, hkeyed.take (hfields field (List.mem_cons_self ..)) value⟩
          · exact ih hothers ⟨_, hkeyed⟩
      · exact ih hothers ⟨_, hkeyed⟩

mutual

/-- Replacing the texts of a value keeps the numbering of the block. -/
theorem template_value_keyed (scope : Text) {keys : BlockKeys} (h : keys.IsKeyed block) :
    (value : Json) → (templateValue scope keys value).2.IsKeyed block
  | .array items => template_items_keyed scope h items
  | .object members =>
      template_members_keyed scope _ (take_fields_keyed members (fun _ hmem ↦ hmem) h) members
  | .null | .boolean _ | .integer _ | .float _ | .string _ => h

theorem template_items_keyed (scope : Text) {keys : BlockKeys} (h : keys.IsKeyed block) :
    (items : List Json) → (templateItems scope keys items).2.IsKeyed block
  | [] => h
  | item :: items => template_items_keyed scope (template_value_keyed scope h item) items

theorem template_members_keyed (scope : Text) (taken : Entries Text) {keys : BlockKeys}
    (h : keys.IsKeyed block) :
    (members : List (Text × Json)) → (templateMembers scope taken keys members).2.IsKeyed block
  | [] => h
  | (name, value) :: members => by
      simp only [templateMembers]
      split
      · exact template_members_keyed scope taken h members
      · exact template_members_keyed scope taken (template_value_keyed scope h value) members

end

/-- The texts of the blocks seen so far were taken under the keys of some fields of each. -/
structure BlockScan.Keyed (scan : BlockScan) (blocks : List (List Text)) : Prop where
  blocks_eq : scan.blocks = blocks.length
  fields_known : ∀ fields ∈ blocks, ∀ field ∈ fields, field ∈ textFields
  keys_eq : scan.taken.map Prod.fst = linkedDataKeys blocks

/-- One more block with its texts. -/
theorem BlockScan.Keyed.add {scan : BlockScan} {blocks : List (List Text)} (h : scan.Keyed blocks)
    {fields : List Text} (hfields : ∀ field ∈ fields, field ∈ textFields)
    {taken : List (Text × Text)}
    (htaken : taken.map Prod.fst = blockKeys (scan.blocks + 1) fields) :
    BlockScan.Keyed ⟨scan.blocks + 1, scan.taken ++ taken⟩ (blocks ++ [fields]) := by
  refine ⟨by simp [h.blocks_eq], ?_, ?_⟩
  · intro others hmem
    rcases List.mem_append.mp hmem with hmem | hmem
    · exact h.fields_known others hmem
    · exact List.mem_singleton.mp hmem ▸ hfields
  · rw [List.map_append, h.keys_eq, htaken, h.blocks_eq, Nat.add_comm, linkedDataKeys,
      linkedDataKeys, List.zipIdx_append, List.flatMap_append]
    simp

/-- Rewriting one block numbers it and its texts. -/
theorem rewrite_block_keyed (scope : Text) {scan : BlockScan} {blocks : List (List Text)}
    (h : scan.Keyed blocks) (slot : Slot) :
    ∃ fields, (rewriteBlock scope scan slot).2.Keyed (blocks ++ [fields]) := by
  have hnothing : BlockScan.Keyed ⟨scan.blocks + 1, scan.taken ++ []⟩ (blocks ++ [[]]) :=
    h.add (by simp) rfl
  rw [List.append_nil] at hnothing
  simp only [rewriteBlock]
  split
  · exact ⟨[], hnothing⟩
  · next value _ =>
      have hstart : BlockKeys.Keyed (scan.blocks + 1)
          ⟨"jsonld_".toList ++ Text.ofNat (scan.blocks + 1), 0, []⟩ [] :=
        ⟨rfl, rfl, by simp, rfl⟩
      obtain ⟨fields, hkeyed⟩ := template_value_keyed scope ⟨_, hstart⟩ value
      split
      · exact ⟨[], hnothing⟩
      · exact ⟨fields, h.add hkeyed.fields_known hkeyed.keys_eq⟩

/-- The blocks of linked data and the texts of each block are numbered one after the other. -/
theorem scan_linked_data_keys (scope html : Text) :
    ∃ blocks, (∀ fields ∈ blocks, ∀ field ∈ fields, field ∈ textFields) ∧
      (scanLinkedData scope html).2.map Prod.fst = linkedDataKeys blocks := by
  have hscan : ∀ (scan : BlockScan) (blocks : List (List Text)), scan.Keyed blocks →
      ∃ all, ((Cuts.all recognizeLinkedData html).rewrite (rewriteBlock scope) scan).2.Keyed all := by
    refine Cuts.all_induction framing_linked_data.consuming
      (motive := fun _ cuts ↦ ∀ (scan : BlockScan) (blocks : List (List Text)),
        scan.Keyed blocks → ∃ all, (cuts.rewrite (rewriteBlock scope) scan).2.Keyed all)
      (fun _ _ scan blocks h ↦ ⟨blocks, h⟩) ?_ html
    intro text before slot rest _ ih scan blocks h
    obtain ⟨fields, hblock⟩ := rewrite_block_keyed scope h slot
    rw [Cuts.rewrite_cons]
    exact ih _ _ hblock
  obtain ⟨blocks, hkeyed⟩ := hscan ⟨0, []⟩ [] ⟨rfl, by simp, rfl⟩
  exact ⟨blocks, hkeyed.fields_known, hkeyed.keys_eq⟩

/-- A document without structured data stays as it is. -/
theorem linked_data_texts_of_none {html : Text} (h : recognizeLinkedData.first? html = none)
    (harvest : Harvest) : linkedDataTexts harvest html = (html, harvest) := by
  simp [linkedDataTexts, scanLinkedData, Cuts.all_of_first_none h]

/-- Taking the texts of structured data is a sequence of small steps over the keys of the blocks. -/
theorem linked_data_texts_gathers {vocabulary : Vocabulary} (rest : Agenda) (harvest : Harvest)
    (html : Text) :
    Gathers vocabulary
      (agendaOf .own ((scanLinkedData harvest.scope html).2.map Prod.fst) ++ rest, harvest)
      (rest, (linkedDataTexts harvest html).2) := by
  simp only [linkedDataTexts]
  generalize (scanLinkedData harvest.scope html).2 = taken
  suffices hfold : ∀ start : Harvest, Gathers vocabulary
      (agendaOf .own (taken.map Prod.fst) ++ rest, start)
      (rest, taken.foldl (fun harvest entry ↦ (harvest.addPage entry.1 entry.2).2) start) from
    hfold harvest
  induction taken with
  | nil => exact fun start ↦ .refl
  | cons entry taken ih =>
      intro start
      obtain ⟨key, text⟩ := entry
      exact Relation.ReflTransGen.head (.take (.fixed _ start ⟨.own, key, text⟩)) (ih _)

end LocalizedSite.Extract
