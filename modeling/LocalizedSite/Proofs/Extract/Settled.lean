import LocalizedSite.Proofs.Extract.Choices
import LocalizedSite.Proofs.Extract.Rewriting

/-!
# Documents that an extraction leaves alone

## Passes that leave a document alone

A pass that takes texts either leaves a document and its harvest as they are or takes at least one
text. `Pass.LeavesWhen` says which documents it leaves alone, by a condition on their slots.
`in_order_leaves` puts the conditions of passes in order together: a pass takes nothing only if it
changes nothing, so each pass meets the same document.
-/

namespace LocalizedSite.Extract

open Slot Harvest

/-- The content of the first slot of a text, if there is one, is not wanted. -/
def FirstLeft (recognize : Recognizer Slot) (wanted : Text → Bool) (text : Text) : Prop :=
  ∀ before slot rest, recognize.first? text = some (before, slot, rest) →
    wanted slot.content = false

/-- The content of no slot of a text is wanted. -/
def EachLeft (recognize : Recognizer Slot) (wanted : Text → Bool) (text : Text) : Prop :=
  ∀ slot ∈ (Cuts.all recognize text).occurrences, wanted slot.content = false

/-- A choice takes a text exactly from the contents that it wants. -/
structure Choice.TakesWhen (wanted : Text → Bool) (choose : Choice) : Prop where
  leaves : ∀ harvest content, wanted content = false → choose harvest content = none
  takes : ∀ harvest content, wanted content = true → ∃ written next,
    choose harvest content = some (written, next) ∧ harvest.taken.length < next.taken.length

/-- A pass leaves a document as it is and takes nothing from it. -/
def Pass.Leaves (pass : Pass) (text : Text) : Prop :=
  ∀ harvest, pass harvest text = (text, harvest)

/-- A pass leaves the settled documents alone and takes something from every other. -/
structure Pass.LeavesWhen (settled : Text → Prop) (pass : Pass) : Prop where
  leaves : ∀ text, settled text → pass.Leaves text
  takes : ∀ harvest text, ¬ settled text →
    harvest.taken.length < (pass harvest text).2.taken.length

namespace Pass.LeavesWhen

variable {pass : Pass} {settled : Text → Prop}

/-- The documents that such a pass leaves alone are the settled ones. -/
theorem leaves_iff (h : pass.LeavesWhen settled) {text : Text} :
    pass.Leaves text ↔ settled text := by
  refine ⟨fun hleaves ↦ ?_, h.leaves text⟩
  by_contra hsettled
  have htakes := h.takes (.empty []) text hsettled
  rw [hleaves] at htakes
  exact absurd htakes (lt_irrefl _)

/-- Such a pass never forgets a text. -/
theorem length_le (h : pass.LeavesWhen settled) (harvest : Harvest) (text : Text) :
    harvest.taken.length ≤ (pass harvest text).2.taken.length := by
  by_cases hsettled : settled text
  · rw [h.leaves text hsettled]
  · exact (h.takes harvest text hsettled).le

/-- The settled documents may be described in another way. -/
theorem congr (h : pass.LeavesWhen settled) {other : Text → Prop}
    (hiff : ∀ text, settled text ↔ other text) : pass.LeavesWhen other :=
  ⟨fun text hother ↦ h.leaves text ((hiff text).mpr hother),
    fun harvest text hother ↦ h.takes harvest text (mt (hiff text).mp hother)⟩

end Pass.LeavesWhen

section Slots

variable {recognize : Recognizer Slot} {choose : Choice} {wanted : Text → Bool}

/-- Rewriting the first slot depends on what stands in it. -/
theorem rewrite_first_leaves (hchoose : choose.TakesWhen wanted) :
    Pass.LeavesWhen (FirstLeft recognize wanted) (rewriteFirst recognize choose) := by
  refine ⟨fun text h harvest ↦ ?_, fun harvest text hleft ↦ ?_⟩
  · simp only [rewriteFirst]
    split
    · rfl
    · next before slot rest hfirst =>
        rw [hchoose.leaves harvest slot.content (h before slot rest hfirst)]
  · simp only [FirstLeft, not_forall, Bool.not_eq_false] at hleft
    obtain ⟨before, slot, rest, hfirst, hwanted⟩ := hleft
    obtain ⟨written, next, hchosen, hmore⟩ := hchoose.takes harvest slot.content hwanted
    simpa [rewriteFirst, hfirst, hchosen] using hmore

/-- Rewriting one of several slots depends on what stands in it. -/
theorem rewrite_slot_le (hchoose : choose.TakesWhen wanted) (harvest : Harvest) (slot : Slot) :
    (wanted slot.content = false ∧ rewriteSlot choose harvest slot = (slot.text, harvest)) ∨
      harvest.taken.length < (rewriteSlot choose harvest slot).2.taken.length := by
  cases hwanted : wanted slot.content with
  | false => exact .inl ⟨rfl, by simp [rewriteSlot, hchoose.leaves harvest slot.content hwanted]⟩
  | true =>
      obtain ⟨written, next, hchosen, hmore⟩ := hchoose.takes harvest slot.content hwanted
      exact .inr (by simpa [rewriteSlot, hchosen] using hmore)

/-- Rewriting all slots leaves the text if no content is wanted, and takes a text otherwise. -/
theorem rewrite_slots_le (hframing : Framing recognize) (hchoose : choose.TakesWhen wanted)
    (text : Text) (harvest : Harvest) :
    EachLeft recognize wanted text ∧ rewriteEach recognize choose harvest text = (text, harvest) ∨
      ¬ EachLeft recognize wanted text ∧
        harvest.taken.length < (rewriteEach recognize choose harvest text).2.taken.length := by
  refine Cuts.all_induction hframing.consuming
    (motive := fun text cuts ↦ ∀ harvest : Harvest,
      (∀ slot ∈ cuts.occurrences, wanted slot.content = false) ∧
          cuts.rewrite (rewriteSlot choose) harvest = (text, harvest) ∨
        ¬ (∀ slot ∈ cuts.occurrences, wanted slot.content = false) ∧
          harvest.taken.length < (cuts.rewrite (rewriteSlot choose) harvest).2.taken.length)
    (fun text _ harvest ↦ .inl (by simp [Cuts.occurrences])) ?_ text harvest
  intro text before slot rest hfirst ih harvest
  obtain ⟨rfl, -⟩ := hframing.first_eq_some hfirst
  rw [Cuts.rewrite_cons]
  simp only [Cuts.occurrences, List.map_cons, List.forall_mem_cons] at ih ⊢
  have hrest := ih (rewriteSlot choose harvest slot).2
  rcases rewrite_slot_le hchoose harvest slot with ⟨hwanted, hslot⟩ | hmore
  · rw [hslot] at hrest ⊢
    rcases hrest with ⟨hleft, hsame⟩ | ⟨htaken, hless⟩
    · exact .inl ⟨⟨hwanted, hleft⟩, by rw [hsame]⟩
    · exact .inr ⟨fun hleft ↦ htaken hleft.2, hless⟩
  · refine .inr ⟨fun hleft ↦ ?_, ?_⟩
    · simp [rewriteSlot, hchoose.leaves harvest slot.content hleft.1] at hmore
    · rcases hrest with ⟨-, hsame⟩ | ⟨-, hless⟩
      · rwa [hsame]
      · exact hmore.trans hless

/-- Rewriting every slot depends on what stands in each of them. -/
theorem rewrite_each_leaves (hframing : Framing recognize) (hchoose : choose.TakesWhen wanted) :
    Pass.LeavesWhen (EachLeft recognize wanted) (rewriteEach recognize choose) := by
  refine ⟨fun text h harvest ↦ ?_, fun harvest text h ↦ ?_⟩
  · exact ((rewrite_slots_le hframing hchoose text harvest).resolve_right fun hnot ↦ hnot.1 h).2
  · exact ((rewrite_slots_le hframing hchoose text harvest).resolve_left fun hleft ↦ h hleft.1).2

/-- Sharing a literal depends on whether the document has it. -/
theorem share_literal_leaves (opening label closing key : Text) :
    Pass.LeavesWhen (fun text ↦ Text.contains text (opening ++ label ++ closing) = false)
      (shareLiteral opening label closing key) := by
  refine ⟨fun text h harvest ↦ ?_, fun harvest text h ↦ ?_⟩
  · rw [shareLiteral, if_neg (by simpa using h)]
  · rw [shareLiteral, if_pos (by simpa using h)]
    exact Nat.lt_succ_self _

/-- Passes in order leave a document alone if each of them does. -/
theorem in_order_leaves_all {passes : List Pass}
    (h : ∀ pass ∈ passes, ∃ settled, Pass.LeavesWhen settled pass) :
    Pass.LeavesWhen (fun text ↦ ∀ pass ∈ passes, pass.Leaves text) (inOrder passes) := by
  induction passes with
  | nil => exact ⟨fun text _ harvest ↦ rfl, fun harvest text hleft ↦ absurd (by simp) hleft⟩
  | cons pass passes ih =>
      have hothers := ih fun other hmem ↦ h other (List.mem_cons_of_mem _ hmem)
      obtain ⟨settled, hpass⟩ := h pass (List.mem_cons_self ..)
      have hcons (harvest : Harvest) (text : Text) : inOrder (pass :: passes) harvest text =
          inOrder passes (pass harvest text).2 (pass harvest text).1 := rfl
      refine ⟨fun text hleaves harvest ↦ ?_, fun harvest text hleft ↦ ?_⟩
      · rw [hcons, hleaves pass (List.mem_cons_self ..)]
        exact hothers.leaves text (fun other hmem ↦ hleaves other (List.mem_cons_of_mem _ hmem))
          harvest
      · rw [hcons]
        by_cases hsettled : settled text
        · rw [hpass.leaves text hsettled]
          refine hothers.takes harvest text fun hall ↦ hleft fun other hmem ↦ ?_
          rcases List.mem_cons.mp hmem with rfl | hmem
          · exact hpass.leaves text hsettled
          · exact hall other hmem
        · exact (hpass.takes harvest text hsettled).trans_le (hothers.length_le _ _)

/-- The settled documents of passes in order are those that each of them leaves alone. -/
theorem in_order_leaves {passes : List Pass} {settled : Text → Prop}
    (h : ∀ pass ∈ passes, ∃ settled, Pass.LeavesWhen settled pass)
    (hiff : ∀ text, (∀ pass ∈ passes, pass.Leaves text) ↔ settled text) :
    Pass.LeavesWhen settled (inOrder passes) :=
  (in_order_leaves_all h).congr hiff

end Slots

section Choices

/-- A choice that takes every wanted content takes something when it is wanted. -/
theorem Choice.TakesAs.takes_when {choose : Choice} {wanted : Text → Bool}
    {take : Harvest → Text → Text × Harvest} (h : choose.TakesAs wanted take)
    (htake : ∀ harvest content, harvest.taken.length < (take harvest content).2.taken.length) :
    choose.TakesWhen wanted := by
  refine ⟨fun harvest content hwanted ↦ ?_, fun harvest content hwanted ↦ ?_⟩
  · rw [h harvest content, hwanted]
    rfl
  · exact ⟨_, _, by rw [h harvest content, if_pos hwanted], htake harvest content⟩

theorem page_text_takes (key : Text) : (pageText key).TakesWhen isLiteral :=
  (page_text_takes_as key).takes_when fun _ _ ↦ Nat.lt_succ_self _

theorem trimmed_page_text_takes (key : Text) : (trimmedPageText key).TakesWhen isLiteral :=
  (trimmed_page_text_takes_as key).takes_when fun _ _ ↦ Nat.lt_succ_self _

theorem numbered_text_takes (category : Text) : (numberedText category).TakesWhen isWorth :=
  (numbered_text_takes_as category).takes_when fun _ _ ↦ Nat.lt_succ_self _

theorem strict_text_takes (category : Text) : (strictText category).TakesWhen isStrictlyWorth :=
  (strict_text_takes_as category).takes_when fun _ _ ↦ Nat.lt_succ_self _

theorem header_text_takes : headerText.TakesWhen fun content ↦ isWorth (Text.trim content) :=
  header_text_takes_as.takes_when fun _ _ ↦ Nat.lt_succ_self _

theorem label_text_takes : labelText.TakesWhen isLiteral :=
  label_text_takes_as.takes_when fun _ _ ↦ Nat.lt_succ_self _

theorem button_text_takes (sharedButtons : Entries Text) :
    (buttonText sharedButtons).TakesWhen isStrictlyWorth := by
  refine (button_text_takes_as sharedButtons).takes_when fun harvest content ↦ ?_
  rw [takeButton]
  split <;> exact Nat.lt_succ_self _

theorem shared_text_takes (key : Text) : (sharedText key).TakesWhen isLiteral :=
  (shared_text_takes_as key).takes_when fun _ _ ↦ Nat.lt_succ_self _

theorem rights_text_takes : rightsText.TakesWhen isLiteral :=
  rights_text_takes_as.takes_when fun _ _ ↦ Nat.lt_succ_self _

end Choices

/-!
## Settled documents

A document is settled for a pass if the pass leaves it alone. The conditions here name the slots that
each pass looks at and what must not stand in them; `Settled` is their conjunction for a page with
texts and `RedirectSettled` for a page that only redirects.
-/

/-- No text of the head is left to take. -/
structure HeadSettled (html : Text) : Prop where
  title : FirstLeft recognizeTitle isLiteral html
  metas : ∀ entry ∈ metaTexts, FirstLeft (recognizeValue entry.1) isLiteral html

/-- No text of a line is left to take. -/
structure LineSettled (vocabulary : Vocabulary) (line : Text) : Prop where
  elements : ∀ element ∈ textElements, FirstLeft (recognizeElement element) isWorth line
  headers : EachLeft recognizeHeader (fun content ↦ isWorth (Text.trim content)) line
  labels : EachLeft recognizeLabel isLiteral line
  spans : ∀ cssClass ∈ vocabulary.spanClasses,
    FirstLeft (recognizeSpan cssClass) isStrictlyWorth line
  divisions : ∀ cssClass ∈ vocabulary.divClasses,
    FirstLeft (recognizeDivision cssClass) isStrictlyWorth line
  button : FirstLeft (recognizeClassed ["button".toList, "a".toList] "btn".toList)
    isStrictlyWorth line
  links : ∀ cssClass ∈ vocabulary.linkClasses,
    FirstLeft (recognizeClassed ["a".toList] cssClass) isStrictlyWorth line

/-- A line is skipped, or no text of it is left to take. -/
def NumberedLineSettled (vocabulary : Vocabulary) (regions : List Region) (number : Nat)
    (line : Text) : Prop :=
  regions.any (fun region ↦ region.covers number) = true ∨
    Text.contains line Reference.mark = true ∨ LineSettled vocabulary line

/-- No text of the body is left to take, and the document is not rejected. -/
def BodySettled (vocabulary : Vocabulary) (html : Text) : Prop :=
  ∃ regions, opaqueRegions? html = some regions ∧
    ∀ entry ∈ (Text.splitAt '\n' html).zipIdx,
      NumberedLineSettled vocabulary regions entry.2 entry.1

/-- No label of links is left to share. -/
def LabelsSettled (labels : Entries Text) (content : Text) : Prop :=
  ∀ entry ∈ labels, Text.contains content (['>'] ++ entry.1 ++ "</a>".toList) = false

/-- No text of a footer is left to share. -/
structure FooterSettled (vocabulary : Vocabulary) (brand content : Text) : Prop where
  tagline : FirstLeft (plainContent "<p class=\"footer-tagline\">".toList "</p>".toList)
    isLiteral content
  headings : ∀ entry ∈ vocabulary.footerHeadings,
    Text.contains content ("<h4>".toList ++ entry.1 ++ "</h4>".toList) = false
  links : LabelsSettled vocabulary.footerLinks content
  disclaimer : FirstLeft (plainContent "<p class=\"disclaimer\">".toList "</p>".toList)
    isLiteral content
  rights : brand ≠ [] → FirstLeft (recognizeRights brand) isLiteral content

/-- No text of the region popup is left to share. -/
structure PopupSettled (vocabulary : Vocabulary) (html : Text) : Prop where
  title : FirstLeft recognizePopupTitle isLiteral html
  subtitle : FirstLeft (plainContent "<p class=\"region-popup-subtitle\">".toList "</p>".toList)
    isLiteral html
  discount : FirstLeft (Slot.between "<p class=\"region-discount\">".toList "</p>".toList)
    isLiteral html
  names : ∀ entry ∈ vocabulary.regionNames, Text.contains html
    ("<span class=\"region-name\">".toList ++ entry.1 ++ "</span>".toList) = false

section Passes

variable {vocabulary : Vocabulary}

/-- The texts of the head are taken unless it is settled. -/
theorem head_texts_leaves : Pass.LeavesWhen HeadSettled headTexts := by
  refine in_order_leaves (fun pass hmem ↦ ?_) fun text ↦ ?_
  · rcases List.mem_cons.mp hmem with rfl | hmem
    · exact ⟨_, rewrite_first_leaves (trimmed_page_text_takes _)⟩
    · obtain ⟨⟨opening, key⟩, -, rfl⟩ := List.mem_map.mp hmem
      exact ⟨_, rewrite_first_leaves (page_text_takes key)⟩
  · simp only [List.forall_mem_cons, List.forall_mem_map,
      (rewrite_first_leaves (trimmed_page_text_takes _)).leaves_iff,
      (rewrite_first_leaves (page_text_takes _)).leaves_iff]
    exact ⟨fun ⟨htitle, hmetas⟩ ↦ ⟨htitle, hmetas⟩, fun ⟨htitle, hmetas⟩ ↦ ⟨htitle, hmetas⟩⟩

/-- The texts of a line are taken unless it is settled. -/
theorem line_texts_leaves : Pass.LeavesWhen (LineSettled vocabulary) (lineTexts vocabulary) := by
  refine in_order_leaves (fun pass hmem ↦ ?_) fun text ↦ ?_
  · simp only [List.mem_append, List.mem_map, List.mem_cons, List.not_mem_nil, or_false] at hmem
    rcases hmem with ((((⟨element, -, rfl⟩ | rfl | rfl) | ⟨cssClass, -, rfl⟩) |
      ⟨cssClass, -, rfl⟩) | rfl) | ⟨cssClass, -, rfl⟩
    · exact ⟨_, rewrite_first_leaves (numbered_text_takes element)⟩
    · exact ⟨_, rewrite_each_leaves reads_header.framing header_text_takes⟩
    · exact ⟨_, rewrite_each_leaves reads_label.framing label_text_takes⟩
    · exact ⟨_, rewrite_first_leaves (strict_text_takes _)⟩
    · exact ⟨_, rewrite_first_leaves (strict_text_takes _)⟩
    · exact ⟨_, rewrite_first_leaves (button_text_takes _)⟩
    · exact ⟨_, rewrite_first_leaves (strict_text_takes _)⟩
  · simp only [List.forall_mem_append, List.forall_mem_map, List.forall_mem_cons,
      List.not_mem_nil, false_implies, implies_true, and_true,
      (rewrite_first_leaves (numbered_text_takes _)).leaves_iff,
      (rewrite_each_leaves reads_header.framing header_text_takes).leaves_iff,
      (rewrite_each_leaves reads_label.framing label_text_takes).leaves_iff,
      (rewrite_first_leaves (strict_text_takes _)).leaves_iff,
      (rewrite_first_leaves (button_text_takes _)).leaves_iff]
    constructor
    · rintro ⟨⟨⟨⟨⟨helements, hheaders, hlabels⟩, hspans⟩, hdivisions⟩, hbutton⟩, hlinks⟩
      exact ⟨helements, hheaders, hlabels, hspans, hdivisions, hbutton, hlinks⟩
    · rintro ⟨helements, hheaders, hlabels, hspans, hdivisions, hbutton, hlinks⟩
      exact ⟨⟨⟨⟨⟨helements, hheaders, hlabels⟩, hspans⟩, hdivisions⟩, hbutton⟩, hlinks⟩

/-- The texts of a numbered line are taken unless it is settled. -/
theorem numbered_line_leaves (regions : List Region) (number : Nat) :
    Pass.LeavesWhen (NumberedLineSettled vocabulary regions number)
      (numberedLine vocabulary regions number) := by
  have hline : Pass.LeavesWhen (LineSettled vocabulary) (lineTexts vocabulary) := line_texts_leaves
  refine ⟨fun text h harvest ↦ ?_, fun harvest text h ↦ ?_⟩
  · simp only [numberedLine]
    split
    · rfl
    · next hskip =>
        simp only [Bool.or_eq_true, not_or] at hskip
        rcases h with hregion | hmark | hsettled
        · exact absurd hregion hskip.1
        · exact absurd hmark hskip.2
        · exact hline.leaves text hsettled harvest
  · simp only [NumberedLineSettled, not_or] at h
    obtain ⟨hregion, hmark, hsettled⟩ := h
    rw [numberedLine, if_neg (by simp only [Bool.or_eq_true, not_or]; exact ⟨hregion, hmark⟩)]
    exact hline.takes harvest text hsettled

/-- The lines stay if all of them are settled, and otherwise a text is taken. -/
theorem lines_texts_le (regions : List Region) (number : Nat) (harvest : Harvest)
    (lines : List Text) :
    (∀ entry ∈ lines.zipIdx number, NumberedLineSettled vocabulary regions entry.2 entry.1) ∧
        linesTexts vocabulary regions number harvest lines = (lines, harvest) ∨
      ¬ (∀ entry ∈ lines.zipIdx number, NumberedLineSettled vocabulary regions entry.2 entry.1) ∧
        harvest.taken.length <
          (linesTexts vocabulary regions number harvest lines).2.taken.length := by
  induction lines generalizing number harvest with
  | nil => exact .inl ⟨by simp, rfl⟩
  | cons line lines ih =>
      have hline : Pass.LeavesWhen (NumberedLineSettled vocabulary regions number)
        (numberedLine vocabulary regions number) := numbered_line_leaves regions number
      have hrest := ih (number + 1) (numberedLine vocabulary regions number harvest line).2
      rw [lines_texts_cons, List.zipIdx_cons, List.forall_mem_cons]
      by_cases hsettled : NumberedLineSettled vocabulary regions number line
      · rw [hline.leaves line hsettled] at hrest ⊢
        rcases hrest with ⟨hothers, hsame⟩ | ⟨hothers, hless⟩
        · exact .inl ⟨⟨hsettled, hothers⟩, by rw [hsame]⟩
        · exact .inr ⟨fun hall ↦ hothers hall.2, hless⟩
      · refine .inr ⟨fun hall ↦ hsettled hall.1, ?_⟩
        have hmore := hline.takes harvest line hsettled
        rcases hrest with ⟨-, hsame⟩ | ⟨-, hless⟩
        · rwa [hsame]
        · exact hmore.trans hless

/-- The body stays if it is settled. -/
theorem body_texts_of_settled {html : Text} (h : BodySettled vocabulary html) (harvest : Harvest) :
    bodyTexts? vocabulary harvest html = some (html, harvest) := by
  obtain ⟨regions, hregions, hlines⟩ := h
  have hsame := (lines_texts_le regions 0 harvest _).resolve_right fun hnot ↦ hnot.1 hlines
  simp only [bodyTexts?, hregions, Option.map_some, hsame.2, Text.join_split_at]

/-- A body from which nothing was taken is settled. -/
theorem body_settled_of_le {html template : Text} {harvest next : Harvest}
    (h : bodyTexts? vocabulary harvest html = some (template, next))
    (hnothing : next.taken.length ≤ harvest.taken.length) : BodySettled vocabulary html := by
  simp only [bodyTexts?, Option.map_eq_some_iff] at h
  obtain ⟨regions, hregions, h⟩ := h
  obtain ⟨-, rfl⟩ := Prod.mk.inj h
  rcases lines_texts_le regions 0 harvest (Text.splitAt '\n' html) with ⟨hlines, -⟩ | ⟨-, hless⟩
  · exact ⟨regions, hregions, hlines⟩
  · omega

/-- The labels of links are shared unless none of them occurs. -/
theorem share_link_labels_leaves (labels : Entries Text) :
    Pass.LeavesWhen (LabelsSettled labels) (shareLinkLabels labels) := by
  refine in_order_leaves (fun pass hmem ↦ ?_) fun text ↦ ?_
  · obtain ⟨⟨label, key⟩, -, rfl⟩ := List.mem_map.mp hmem
    exact ⟨_, share_literal_leaves ..⟩
  · simp only [List.forall_mem_map, (share_literal_leaves _ _ _ _).leaves_iff]
    rfl

/-- The texts of a footer are shared unless it is settled. -/
theorem footer_passes_leaves (brand : Text) :
    Pass.LeavesWhen (FooterSettled vocabulary brand) (footerPasses vocabulary brand) := by
  refine in_order_leaves (fun pass hmem ↦ ?_) fun text ↦ ?_
  · simp only [List.mem_append, List.mem_map, List.mem_cons, List.not_mem_nil, or_false] at hmem
    rcases hmem with ((rfl | ⟨⟨label, key⟩, -, rfl⟩) | (rfl | rfl)) | hmem
    · exact ⟨_, rewrite_first_leaves (shared_text_takes _)⟩
    · exact ⟨_, share_literal_leaves ..⟩
    · exact ⟨_, share_link_labels_leaves _⟩
    · exact ⟨_, rewrite_first_leaves (shared_text_takes _)⟩
    · split at hmem
      · exact absurd hmem (by simp)
      · obtain rfl := List.mem_singleton.mp hmem
        exact ⟨_, rewrite_first_leaves rights_text_takes⟩
  · have hrights : (∀ pass ∈ (if brand.isEmpty then [] else
          [rewriteFirst (recognizeRights brand) rightsText] : List Pass), pass.Leaves text) ↔
        (brand ≠ [] → FirstLeft (recognizeRights brand) isLiteral text) := by
      cases brand with
      | nil => simp
      | cons first brand =>
          simp [(rewrite_first_leaves rights_text_takes).leaves_iff]
    simp only [List.forall_mem_append, List.forall_mem_map, List.forall_mem_cons,
      List.not_mem_nil, false_implies, implies_true, and_true, hrights,
      (rewrite_first_leaves (shared_text_takes _)).leaves_iff,
      (share_literal_leaves _ _ _ _).leaves_iff, (share_link_labels_leaves _).leaves_iff]
    constructor
    · rintro ⟨⟨⟨htagline, hheadings⟩, hlinks, hdisclaimer⟩, hrights⟩
      exact ⟨htagline, hheadings, hlinks, hdisclaimer, hrights⟩
    · rintro ⟨htagline, hheadings, hlinks, hdisclaimer, hrights⟩
      exact ⟨⟨⟨htagline, hheadings⟩, hlinks, hdisclaimer⟩, hrights⟩

/-- The texts of the first footer are shared unless it is settled. -/
theorem footer_leaves (brand : Text) :
    Pass.LeavesWhen (fun html ↦ ∀ before slot rest,
      recognizeFooter.first? html = some (before, slot, rest) →
        FooterSettled vocabulary brand slot.content) (footer vocabulary brand) := by
  have hpasses : Pass.LeavesWhen (FooterSettled vocabulary brand) _ := footer_passes_leaves brand
  refine ⟨fun text h harvest ↦ ?_, fun harvest text h ↦ ?_⟩
  · simp only [footer, rewriteFirst]
    split
    · rfl
    · next before slot rest hfirst =>
        simp only [hpasses.leaves _ (h before slot rest hfirst) harvest]
        obtain ⟨rfl, -⟩ := framing_footer.first_eq_some hfirst
        rfl
  · simp only [not_forall] at h
    obtain ⟨before, slot, rest, hfirst, hsettled⟩ := h
    simpa [footer, rewriteFirst, hfirst] using hpasses.takes harvest slot.content hsettled

/-- The texts of the region popup are shared unless it is settled. -/
theorem region_popup_leaves :
    Pass.LeavesWhen (PopupSettled vocabulary) (regionPopup vocabulary) := by
  refine in_order_leaves (fun pass hmem ↦ ?_) fun text ↦ ?_
  · simp only [List.mem_append, List.mem_map, List.mem_cons, List.not_mem_nil, or_false] at hmem
    rcases hmem with (rfl | rfl | rfl) | ⟨⟨name, key⟩, -, rfl⟩
    · exact ⟨_, rewrite_first_leaves (shared_text_takes _)⟩
    · exact ⟨_, rewrite_first_leaves (shared_text_takes _)⟩
    · exact ⟨_, rewrite_first_leaves (shared_text_takes _)⟩
    · exact ⟨_, share_literal_leaves ..⟩
  · simp only [List.forall_mem_append, List.forall_mem_map, List.forall_mem_cons,
      List.not_mem_nil, false_implies, implies_true, and_true, (rewrite_first_leaves (shared_text_takes _)).leaves_iff,
      (share_literal_leaves _ _ _ _).leaves_iff]
    constructor
    · rintro ⟨⟨htitle, hsubtitle, hdiscount⟩, hnames⟩
      exact ⟨htitle, hsubtitle, hdiscount, hnames⟩
    · rintro ⟨htitle, hsubtitle, hdiscount, hnames⟩
      exact ⟨⟨htitle, hsubtitle, hdiscount⟩, hnames⟩

end Passes

end LocalizedSite.Extract
