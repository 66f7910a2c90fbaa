import LocalizedSite.Proofs.Extract.LinkedData
import LocalizedSite.Proofs.Extract.Templating
import LocalizedSite.Proofs.Json.Accepted
import LocalizedSite.Proofs.Json.Mention
import LocalizedSite.Proofs.Json.Quotes
import LocalizedSite.Proofs.Text.Recut

/-!
# Linked data stays intact

A document whose linked data is extracted has the same blocks between the same texts, and each block is
the value it was with references for the texts taken (`Intact`), exactly if no string and no name that
is left in a block from which texts are taken has the end tag of a script (`extract_intact_iff`). The
block is written anew without the escapes of its source, so that such an end tag ends the block early.

Whether or not a block ends early, nothing is left to translate in the new document: a block that is written
anew has references for its texts, and the beginning of one that ends early is no JSON. So extraction from an
extracted document changes nothing and takes nothing (`extract_linked_data_again`).
-/

namespace LocalizedSite.Extract

/-- What begins a block of linked data. -/
def scriptStart : Text := "<script type=\"application/ld+json\">".toList

/-- What ends a block of linked data. -/
def scriptEnd : Text := "</script>".toList

/-- A block of the document and of the extracted document, each with the text in front of it. The texts
in front are the same. A block that is no JSON or has nothing to translate stays, and any other block is
a value that becomes the value it was when the texts are put back. -/
structure BlockIntact (scope : Text) (texts : Entries Text) (piece other : Text × Slot) : Prop where
  before_eq : other.1 = piece.1
  kept : (∀ value, Json.parse piece.2.content = .ok value → ¬ HasTexts value) → other.2 = piece.2
  restored : ∀ value, Json.parse piece.2.content = .ok value → HasTexts value →
    ∃ changed, Json.parse other.2.content = .ok changed ∧
      ((∀ text, Json.Within (.string text) value → ¬ openBraces <:+: text) →
        restoreValue scope texts changed = value)

/-- The extracted document has as many blocks as the document, each of them intact, and the same text
behind the last one. -/
def Intact (scope html : Text) : Prop :=
  let cuts := Cuts.all recognizeLinkedData html
  let others := Cuts.all recognizeLinkedData (extractLinkedData scope html).1
  List.Forall₂ (BlockIntact scope (extractLinkedData scope html).2) cuts.found others.found ∧
    others.tail = cuts.tail

/-- The keys of a block from which nothing is taken yet. -/
def startKeys (number : Nat) : BlockKeys :=
  ⟨"jsonld_".toList ++ Text.ofNat number, 0, []⟩

/-- The content that is written for a block. -/
def newContent (scope : Text) (number : Nat) (content : Text) : Text :=
  match Json.parse content with
  | .error _ => content
  | .ok value =>
    let result := templateValue scope (startKeys number) value
    if result.2.taken.isEmpty then content
    else "\n    ".toList ++ Json.render blockIndent result.1 ++ "\n    ".toList

/-- The texts that are taken from a block. -/
def newTexts (scope : Text) (number : Nat) (content : Text) : List (Text × Text) :=
  match Json.parse content with
  | .error _ => []
  | .ok value => (templateValue scope (startKeys number) value).2.taken.reverse

/-- A block with the content that is written for it. -/
def newPiece (scope : Text) (piece : (Text × Slot) × Nat) : Text × Slot :=
  (piece.1.1, { piece.1.2 with content := newContent scope piece.2 piece.1.2.content })

/-- Rewriting a block writes its new content and takes its texts. -/
theorem rewrite_block_eq (scope : Text) (scan : BlockScan) (slot : Slot) :
    rewriteBlock scope scan slot =
      (slot.withContent (newContent scope (scan.blocks + 1) slot.content),
        ⟨scan.blocks + 1, scan.taken ++ newTexts scope (scan.blocks + 1) slot.content⟩) := by
  unfold rewriteBlock newContent newTexts startKeys
  cases Json.parse slot.content with
  | error fault => simp only [Slot.text, List.append_nil]
  | ok value =>
      simp only
      generalize templateValue scope ⟨"jsonld_".toList ++ Text.ofNat (scan.blocks + 1), 0, []⟩ value =
        result
      by_cases hnone : result.2.taken.isEmpty = true
      · simp only [Slot.text, List.isEmpty_iff.mp hnone, List.isEmpty_nil, if_true, List.reverse_nil,
          List.append_nil]
      · simp only [hnone, Bool.false_eq_true, if_false]

/-- The blocks are rewritten one by one, numbered from one. -/
theorem rewrite_blocks_eq (scope : Text) (found : List (Text × Slot)) (last : Text)
    (scan : BlockScan) :
    let numbered := found.zipIdx (scan.blocks + 1)
    Cuts.rewrite (rewriteBlock scope) scan ⟨found, last⟩ =
      ((⟨numbered.map (newPiece scope), last⟩ : Cuts Slot).text Slot.text,
        ⟨scan.blocks + found.length,
          scan.taken ++ numbered.flatMap fun piece ↦ newTexts scope piece.2 piece.1.2.content⟩) := by
  induction found generalizing scan with
  | nil => simp [Cuts.text]
  | cons piece found ih =>
      obtain ⟨before, slot⟩ := piece
      intro numbered
      rw [Cuts.rewrite_cons, rewrite_block_eq, ih]
      simp [numbered, newPiece, Cuts.text, Slot.text_eq, Slot.withContent, Nat.add_comm,
        Nat.add_left_comm]

/-- The blocks of a document with the contents that are written for them. -/
def newCuts (scope : Text) (cuts : Cuts Slot) : Cuts Slot :=
  ⟨(cuts.found.zipIdx 1).map (newPiece scope), cuts.tail⟩

/-- The texts that are taken from the blocks of a document. -/
def allTexts (scope : Text) (cuts : Cuts Slot) : Entries Text :=
  (cuts.found.zipIdx 1).flatMap fun piece ↦ newTexts scope piece.2 piece.1.2.content

/-- A scan of the blocks writes the new contents and takes all texts. -/
theorem scan_linked_data_blocks (scope html : Text) :
    let cuts := Cuts.all recognizeLinkedData html
    scanLinkedData scope html = ((newCuts scope cuts).text Slot.text, allTexts scope cuts) := by
  intro cuts
  unfold scanLinkedData
  rw [rewrite_blocks_eq]
  rfl

/-- The keys of the texts taken differ. -/
theorem names_all_texts_nodup (scope html : Text) :
    (allTexts scope (Cuts.all recognizeLinkedData html)).names.Nodup := by
  obtain ⟨blocks, -, hkeys⟩ := scan_linked_data_keys scope html
  rw [scan_linked_data_blocks] at hkeys
  rw [Entries.names, hkeys]
  exact nodup_linked_data_keys blocks

/-- Extraction writes the new contents and takes all texts. -/
theorem extract_linked_data_eq (scope html : Text) :
    let cuts := Cuts.all recognizeLinkedData html
    extractLinkedData scope html = ((newCuts scope cuts).text Slot.text, allTexts scope cuts) := by
  intro cuts
  rw [extractLinkedData, scan_linked_data_blocks]
  simp only [Entries.of_list_eq (names_all_texts_nodup scope html), cuts]

/-- A block without anything to translate stays. -/
theorem new_content_of_not (scope : Text) (number : Nat) {content : Text}
    (h : ∀ value, Json.parse content = .ok value → ¬ HasTexts value) :
    newContent scope number content = content := by
  unfold newContent
  cases hparse : Json.parse content with
  | error fault => rfl
  | ok value =>
      rcases template_value_cases scope (startKeys number) value with ⟨-, hsame⟩ | ⟨hsome, -⟩
      · simp only [hsame]
        rfl
      · exact absurd hsome (h value hparse)

/-- A block with something to translate is written anew. -/
theorem new_content_of_has (scope : Text) (number : Nat) {content : Text} {value : Json}
    (hparse : Json.parse content = .ok value) (h : HasTexts value) :
    newContent scope number content = "\n    ".toList ++
      (Json.render blockIndent (templateValue scope (startKeys number) value).1 ++
        "\n    ".toList) := by
  unfold newContent
  rw [hparse]
  rcases template_value_cases scope (startKeys number) value with ⟨hnone, -⟩ | ⟨-, hless⟩
  · exact absurd h hnone
  · have hsome : (templateValue scope (startKeys number) value).2.taken.isEmpty = false := by
      rw [List.isEmpty_eq_false_iff, ← List.length_pos_iff]
      exact Nat.zero_lt_of_lt hless
    simp only [hsome, Bool.false_eq_true, if_false, List.append_assoc]

/-- A block that is written anew is read as the templated value. -/
theorem parse_new_content (scope : Text) (number : Nat) {content : Text} {value : Json}
    (hparse : Json.parse content = .ok value) (h : HasTexts value) :
    Json.parse (newContent scope number content) =
      .ok (templateValue scope (startKeys number) value).1 := by
  have hwell := template_value_well_formed scope (Json.parse_well_formed hparse) (startKeys number)
  rw [new_content_of_has scope number hparse h]
  exact Json.parse_render blockIndent hwell (Json.is_gap_line 4) (Json.is_gap_line 4)
    ⟨_, .inr rfl⟩

/-- A block that is no JSON or has nothing to translate. -/
def IsSettled (content : Text) : Prop :=
  ∀ value, Json.parse content = .ok value → ¬ HasTexts value

/-- A block is written anew and read as a templated value, or has nothing to translate and stays. -/
theorem new_content_cases (scope : Text) (number : Nat) (content : Text) :
    (∃ value, Json.parse content = .ok value ∧ HasTexts value ∧
        Json.parse (newContent scope number content) =
          .ok (templateValue scope (startKeys number) value).1) ∨
      IsSettled content ∧ newContent scope number content = content := by
  by_cases hsome : ∃ value, Json.parse content = .ok value ∧ HasTexts value
  · obtain ⟨value, hparse, htexts⟩ := hsome
    exact .inl ⟨value, hparse, htexts, parse_new_content scope number hparse htexts⟩
  · have hsettled : IsSettled content := fun value hparse htexts ↦ hsome ⟨value, hparse, htexts⟩
    exact .inr ⟨hsettled, new_content_of_not scope number hsettled⟩

/-- The end of a script stands in no other place than the strings and names of a value. -/
theorem is_tag_script_end : Json.IsTag scriptEnd where
  begins := ⟨_, rfl⟩
  plain character hmem := by
    have hall : scriptEnd.all (fun found ↦ Json.escapeCharacter found == [found]) = true := by decide
    exact beq_iff_eq.mp (List.all_eq_true.mp hall character hmem)
  inside character hmem := by
    have hall : "\" \n,:[]\x7b\x7d".toList.all (fun found ↦ decide (found ∉ scriptEnd)) = true := by
      decide
    exact of_decide_eq_true (List.all_eq_true.mp hall character hmem)

/-- A block that is written anew ends a script where its value has the end of a script. -/
theorem script_end_new_content (scope : Text) (number : Nat) {content : Text} {value : Json}
    (hparse : Json.parse content = .ok value) (h : HasTexts value) :
    scriptEnd <:+: newContent scope number content ↔
      ∃ text, Json.Mentions text (templateValue scope (startKeys number) value).1 ∧
        scriptEnd <:+: text := by
  have hwell := template_value_well_formed scope (Json.parse_well_formed hparse) (startKeys number)
  have hmark : scriptEnd = '<' :: "/script>".toList := rfl
  have hline : "\n    ".toList = '\n' :: "    ".toList := rfl
  rw [new_content_of_has scope number hparse h, ← Json.infix_render_iff is_tag_script_end blockIndent
    hwell 0, hmark, Text.infix_append_iff (by decide), hline,
    Text.infix_append_of_not_mem (by decide) (by decide)]
  rfl

/-- A block whose content is written stays intact. -/
theorem new_piece_intact {scope : Text} {texts : Entries Text} (hnames : texts.names.Nodup)
    {piece : Text × Slot} {number : Nat}
    (htexts : ∀ entry ∈ newTexts scope number piece.2.content, entry ∈ texts) :
    BlockIntact scope texts piece (newPiece scope (piece, number)) := by
  refine ⟨rfl, fun hnone ↦ ?_, fun value hparse hsome ↦ ?_⟩
  · show { piece.2 with content := newContent scope number piece.2.content } = piece.2
    rw [new_content_of_not scope number hnone]
  · refine ⟨_, parse_new_content scope number hparse hsome, fun hbraces ↦ ?_⟩
    refine restore_template_value (Json.parse_well_formed hparse)
      (fun text hwithin ↦ restore_text_of_not_infix scope (hbraces text hwithin)) _ fun entry hmem ↦ ?_
    refine restore_text_of_mem scope hnames (htexts entry ?_)
    unfold newTexts
    rw [hparse]
    exact List.mem_reverse.mpr hmem

/-- Neither the beginning nor the end of a block overlaps itself. -/
theorem lone_script : Text.IsLone scriptStart ∧ Text.IsLone scriptEnd :=
  ⟨⟨'<', _, rfl, by decide⟩, ⟨'<', _, rfl, by decide⟩⟩

/-- The new contents are put between the same texts. -/
theorem is_between_new_cuts (scope : Text) {cuts : Cuts Slot}
    (h : Cuts.IsBetween scriptStart scriptEnd cuts) :
    Cuts.IsBetween scriptStart scriptEnd (newCuts scope cuts) := by
  have hpiece {other : Text × Slot} (hmem : other ∈ (newCuts scope cuts).found) :
      ∃ piece ∈ cuts.found, other.1 = piece.1 ∧ other.2.opening = piece.2.opening ∧
        other.2.closing = piece.2.closing := by
    obtain ⟨⟨piece, number⟩, hnumbered, rfl⟩ := List.mem_map.mp hmem
    exact ⟨piece, List.fst_mem_of_mem_zipIdx hnumbered, rfl, rfl, rfl⟩
  refine ⟨fun other hmem ↦ ?_, fun other hmem ↦ ?_, fun other hmem ↦ ?_, h.tail_none⟩
  · obtain ⟨piece, hpiece, hbefore, -, -⟩ := hpiece hmem
    rw [hbefore]
    exact h.before_free piece hpiece
  · obtain ⟨piece, hpiece, -, hopening, -⟩ := hpiece hmem
    rw [hopening]
    exact h.opening_eq piece hpiece
  · obtain ⟨piece, hpiece, -, -, hclosing⟩ := hpiece hmem
    rw [hclosing]
    exact h.closing_eq piece hpiece

/-- What is left of a JSON text that is cut short at the end of a script is no JSON. -/
theorem parse_front_ne {content front back : Text} {value : Json} (hparse : Json.parse content = .ok value)
    (hcontent : content = front ++ scriptEnd ++ back) (changed : Json) :
    Json.parse front ≠ .ok changed := by
  intro hfront
  rw [hcontent, List.append_assoc] at hparse
  have hgap := Json.is_gap_of_parse_append hfront (Json.delimited_cons (by decide) _) hparse
  exact absurd (hgap '<' (List.mem_cons_self ..)) (by decide)

/-- A new content that is cut short at the end of a script is no longer read. -/
theorem BlockIntact.content_ne {scope : Text} {texts : Entries Text} {piece other : Text × Slot}
    (h : BlockIntact scope texts piece other) (hfree : ¬ scriptEnd <:+: piece.2.content) {number : Nat}
    {front back : Text}
    (hcontent : newContent scope number piece.2.content = front ++ scriptEnd ++ back) :
    other.2.content ≠ front := by
  rintro rfl
  rcases new_content_cases scope number piece.2.content with ⟨value, hparse, htexts, hnew⟩ | ⟨-, hsame⟩
  · obtain ⟨changed, hchanged, -⟩ := h.restored value hparse htexts
    exact parse_front_ne hnew hcontent changed hchanged
  · rw [hsame] at hcontent
    exact hfree ⟨_, back, hcontent.symm⟩

/-- The blocks of a cut document stay intact exactly if no new content has the end of a script. -/
theorem recut_intact_iff {scope : Text} {cuts : Cuts Slot}
    (hbetween : Cuts.IsBetween scriptStart scriptEnd cuts)
    (hfree : ∀ piece ∈ cuts.found, ¬ scriptEnd <:+: piece.2.content)
    (hnames : (allTexts scope cuts).names.Nodup) :
    List.Forall₂ (BlockIntact scope (allTexts scope cuts)) cuts.found
          (Cuts.recut scriptStart scriptEnd (newCuts scope cuts)).found ∧
        (Cuts.recut scriptStart scriptEnd (newCuts scope cuts)).tail = cuts.tail ↔
      ∀ piece ∈ (newCuts scope cuts).found, ¬ scriptEnd <:+: piece.2.content := by
  obtain ⟨hopening, hclosing⟩ := lone_script
  have hnew := is_between_new_cuts scope hbetween
  have hfirst : (cuts.found.zipIdx 1).map Prod.fst = cuts.found := List.zipIdx_map_fst 1 cuts.found
  constructor
  · rintro ⟨hblocks, -⟩
    refine Cuts.closing_free_of_forall hopening hclosing hnew (List.forall₂_map_left_iff.mpr ?_)
    rw [← hfirst, List.forall₂_map_left_iff] at hblocks
    have hboth := (List.forall₂_and_left _ _).mpr ⟨fun numbered hmem ↦
      hfree numbered.1 (List.fst_mem_of_mem_zipIdx hmem), hblocks⟩
    refine hboth.imp fun numbered other hblock front back hcontent ↦ ?_
    obtain ⟨hpiece, hintact⟩ := hblock
    exact hintact.content_ne hpiece
      (show newContent scope numbered.2 numbered.1.2.content = _ from hcontent)
  · intro hclosed
    rw [Cuts.recut_eq hopening hclosing hnew hclosed]
    refine ⟨List.forall₂_map_right_iff.mpr ?_, rfl⟩
    have hblocks : List.Forall₂
        (fun piece numbered ↦ BlockIntact scope (allTexts scope cuts) piece (newPiece scope numbered))
        ((cuts.found.zipIdx 1).map Prod.fst) (cuts.found.zipIdx 1) :=
      List.forall₂_map_left_iff.mpr (List.forall₂_same.mpr fun numbered hmem ↦
        new_piece_intact hnames fun entry hentry ↦ List.mem_flatMap.mpr ⟨numbered, hmem, hentry⟩)
    rwa [hfirst] at hblocks

/-- Linked data stays intact exactly if no new content has the end of a script. -/
theorem intact_iff_free (scope html : Text) : Intact scope html ↔
    ∀ piece ∈ (newCuts scope (Cuts.all recognizeLinkedData html)).found,
      ¬ scriptEnd <:+: piece.2.content := by
  obtain ⟨hopening, hclosing⟩ := lone_script
  obtain ⟨hbetween, hfree⟩ := Cuts.is_between_all hopening hclosing html
  unfold Intact
  rw [extract_linked_data_eq]
  exact recut_intact_iff hbetween hfree (names_all_texts_nodup scope html)

/-- The linked data of a document stays intact exactly if no string and no name of a value that is
written for a block has the end tag of a script. -/
theorem extract_intact_iff (scope html : Text) : Intact scope html ↔
    ∀ piece number value, (piece, number) ∈ (Cuts.all recognizeLinkedData html).found.zipIdx 1 →
      Json.parse piece.2.content = .ok value → HasTexts value →
        ∀ text, Json.Mentions text (templateValue scope (startKeys number) value).1 →
          ¬ scriptEnd <:+: text := by
  rw [intact_iff_free]
  constructor
  · intro hfree piece number value hmem hparse htexts text hmention hstands
    exact hfree _ (List.mem_map_of_mem hmem)
      ((script_end_new_content scope number hparse htexts).mpr ⟨text, hmention, hstands⟩)
  · intro hfree other hmem hstands
    obtain ⟨⟨piece, number⟩, hnumbered, rfl⟩ := List.mem_map.mp hmem
    by_cases hsome : ∃ value, Json.parse piece.2.content = .ok value ∧ HasTexts value
    · obtain ⟨value, hparse, htexts⟩ := hsome
      obtain ⟨text, hmention, htext⟩ := (script_end_new_content scope number hparse htexts).mp hstands
      exact hfree piece number value hnumbered hparse htexts text hmention htext
    · have hkept := new_content_of_not scope number fun value hparse htexts ↦
        hsome ⟨value, hparse, htexts⟩
      obtain ⟨hopening, hclosing⟩ := lone_script
      refine (Cuts.is_between_all hopening hclosing html).2 piece
        (List.fst_mem_of_mem_zipIdx hnumbered) ?_
      rw [← hkept]
      exact hstands

/-- A string with an escaped end tag is written without the escape, so that it ends its block early. -/
theorem not_intact_note :
    ¬ Intact "home".toList ("<script type=\"application/ld+json\">\x7b\"description\": " ++
      "\"A long product description.\", \"note\": \"a<\\/script>b\"\x7d</script>").toList := by
  rw [intact_iff_free]
  decide +kernel

section Again

/-- What is written for a block has nothing to translate. -/
theorem settled_new_content (scope : Text) (number : Nat) (content : Text) :
    IsSettled (newContent scope number content) := by
  rcases new_content_cases scope number content with ⟨value, -, -, hnew⟩ | ⟨hsettled, hsame⟩
  · intro changed hchanged
    obtain rfl := Except.ok.inj (hnew.symm.trans hchanged)
    exact template_value_settled scope _ value
  · rwa [hsame]

/-- Nothing is taken from a block that has nothing to translate. -/
theorem new_texts_of_settled (scope : Text) (number : Nat) {content : Text} (h : IsSettled content) :
    newTexts scope number content = [] := by
  unfold newTexts
  cases hparse : Json.parse content with
  | error fault => rfl
  | ok value =>
      rcases template_value_cases scope (startKeys number) value with ⟨-, hsame⟩ | ⟨hsome, -⟩
      · simp only [hsame]
        rfl
      · exact absurd hsome (h value hparse)

/-- The beginning and the end of a block do not go into each other. -/
theorem apart_script : Cuts.AreApart scriptStart scriptEnd where
  opening_lone := lone_script.1
  closing_lone := lone_script.2
  ending_lone := ⟨'>', scriptStart.reverse.tail, by decide, by decide⟩
  head_eq := rfl
  last_eq := by decide
  not_within := by decide

/-- A new content ends a script only if it was written anew, and then it begins none: it has no attribute. -/
theorem start_free_new_content (scope : Text) (number : Nat) {content : Text}
    (hfree : ¬ scriptEnd <:+: content) (hend : scriptEnd <:+: newContent scope number content) :
    ¬ scriptStart <:+: newContent scope number content := by
  rcases new_content_cases scope number content with ⟨value, -, -, hnew⟩ | ⟨-, hsame⟩
  · have hquote : Json.quoteMark 'a' <:+: scriptStart :=
      ⟨"<script type".toList, "pplication/ld+json\">".toList, by decide⟩
    exact fun hstart ↦ Json.parse_no_quote_mark (by decide) hnew (hquote.trans hstart)
  · rw [hsame] at hend
    exact absurd hend hfree

/-- The blocks of an extracted document have nothing to translate. -/
theorem settled_recut (scope : Text) {cuts : Cuts Slot} (hbetween : Cuts.IsBetween scriptStart scriptEnd cuts)
    (hfree : ∀ piece ∈ cuts.found, ¬ scriptEnd <:+: piece.2.content) :
    ∀ other ∈ (Cuts.recut scriptStart scriptEnd (newCuts scope cuts)).occurrences,
      IsSettled other.content := by
  have hnew {slot : Slot} (hmem : slot ∈ (newCuts scope cuts).occurrences) :
      ∃ number, ∃ piece ∈ cuts.found, slot.content = newContent scope number piece.2.content := by
    obtain ⟨other, hother, rfl⟩ := List.mem_map.mp hmem
    obtain ⟨⟨piece, number⟩, hnumbered, rfl⟩ := List.mem_map.mp hother
    exact ⟨number, piece, List.fst_mem_of_mem_zipIdx hnumbered, rfl⟩
  intro other hother
  obtain ⟨slot, hslot, hshortened⟩ := Cuts.mem_recut apart_script (is_between_new_cuts scope hbetween)
    (fun slot hmem hend ↦ by
      obtain ⟨number, piece, hpiece, hcontent⟩ := hnew hmem
      rw [hcontent] at hend ⊢
      exact start_free_new_content scope number (hfree piece hpiece) hend) other hother
  obtain ⟨number, piece, hpiece, hcontent⟩ := hnew hslot
  rcases hshortened with hwhole | ⟨back, hshort⟩
  · rw [hwhole, hcontent]
    exact settled_new_content scope number piece.2.content
  · -- Only what was written anew has the end of a script, and that is JSON as long as it is whole.
    rw [hcontent] at hshort
    rcases new_content_cases scope number piece.2.content with ⟨value, -, -, hnew⟩ | ⟨-, hsame⟩
    · exact fun changed hchanged _ ↦ parse_front_ne hnew hshort changed hchanged
    · rw [hsame] at hshort
      exact absurd ⟨_, back, hshort.symm⟩ (hfree piece hpiece)

/-- Blocks that have nothing to translate are written as they are, and nothing is taken from them. -/
theorem new_cuts_of_settled (scope : Text) {cuts : Cuts Slot}
    (h : ∀ slot ∈ cuts.occurrences, IsSettled slot.content) :
    newCuts scope cuts = cuts ∧ allTexts scope cuts = [] := by
  have hpiece {numbered : (Text × Slot) × Nat} (hmem : numbered ∈ cuts.found.zipIdx 1) :
      IsSettled numbered.1.2.content :=
    h _ (List.mem_map_of_mem (List.fst_mem_of_mem_zipIdx hmem))
  constructor
  · have hsame : (cuts.found.zipIdx 1).map (newPiece scope) = (cuts.found.zipIdx 1).map Prod.fst :=
      List.map_congr_left fun numbered hmem ↦ by
        rw [newPiece, new_content_of_not scope numbered.2 (hpiece hmem)]
    rw [newCuts, hsame, List.zipIdx_map_fst]
  · exact List.flatMap_eq_nil_iff.mpr fun numbered hmem ↦ new_texts_of_settled scope _ (hpiece hmem)

/-- Extraction from an extracted document changes nothing and takes nothing. -/
theorem extract_linked_data_again (scope html : Text) :
    let extracted := (extractLinkedData scope html).1
    extractLinkedData scope extracted = (extracted, []) := by
  intro extracted
  obtain ⟨hopening, hclosing⟩ := lone_script
  obtain ⟨hbetween, hfree⟩ := Cuts.is_between_all hopening hclosing html
  have hrecut : Cuts.all recognizeLinkedData extracted =
      Cuts.recut scriptStart scriptEnd (newCuts scope (Cuts.all recognizeLinkedData html)) := by
    rw [show extracted = _ from congrArg Prod.fst (extract_linked_data_eq scope html)]
    rfl
  obtain ⟨hnew, hnone⟩ := new_cuts_of_settled scope (settled_recut scope hbetween hfree)
  have htext : (Cuts.all recognizeLinkedData extracted).text Slot.text = extracted :=
    Cuts.text_all_written (Slot.reads_written_between hopening hclosing) extracted
  rw [hrecut] at htext
  rw [extract_linked_data_eq, hrecut]
  exact Prod.ext ((congrArg (Cuts.text Slot.text) hnew).trans htext) hnone

end Again

end LocalizedSite.Extract
