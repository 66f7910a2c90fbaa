import LocalizedSite.Proofs.Extract.Choices
import LocalizedSite.Proofs.Extract.Framing
import LocalizedSite.Proofs.Extract.Gathering
import LocalizedSite.Proofs.Text.Lines

/-!
# The text passes as rewriting

A document and its harvest change in two kinds of small steps: a text is taken, and the content of a
framed slot is replaced by the reference to a taken text. Every pass that takes texts from the markup
is a sequence of such steps, `body_rewriting`, `footer_rewrites` and their like, so that what holds
along a sequence of steps holds of the passes. A pass that takes texts under fixed keys leaves these
keys behind, whether it uses them or not.
-/

namespace LocalizedSite.Extract

open Slot Harvest

/-- The reference that stands in the template of a page for a taken text. -/
def Taking.reference (scope : Text) (taking : Taking) : Reference :=
  match taking.keeping with
  | .own => ⟨scope, taking.key⟩
  | .shared => ⟨sharedScope, taking.key⟩

/-- A document with what was gathered from it. -/
abbrev Draft := Text × Harvest

/-- One small step of a pass that takes texts. -/
inductive Rewrites (vocabulary : Vocabulary) : Agenda × Draft → Agenda × Draft → Prop
  /-- A text is taken, or a fixed key is passed over. -/
  | advance {agenda rest : Agenda} {harvest next : Harvest} (text : Text)
      (hstep : Advances vocabulary (agenda, harvest) (rest, next)) :
      Rewrites vocabulary (agenda, text, harvest) (rest, text, next)
  /-- A reference is put in place of a taken text, with a space behind it or not. -/
  | place (agenda : Agenda) {harvest : Harvest} {taking : Taking} {slot : Slot} {padding : Text}
      (before after : Text) (hframed : slot.Framed) (hmem : taking ∈ harvest.taken)
      (htext : taking.text = slot.content ∨ taking.text = Text.trim slot.content)
      (hpadding : padding = [] ∨ padding = [' ']) :
      Rewrites vocabulary (agenda, before ++ slot.text ++ after, harvest)
        (agenda, before ++ slot.withContent ((taking.reference harvest.scope).text ++ padding) ++
          after, harvest)

/-- Any number of small steps. -/
abbrev Rewriting (vocabulary : Vocabulary) : Agenda × Draft → Agenda × Draft → Prop :=
  Relation.ReflTransGen (Rewrites vocabulary)

namespace Rewriting

variable {vocabulary : Vocabulary} {state next : Agenda × Draft}

/-- What is done to a piece of a document is done to the document. -/
theorem inside (front back : Text) {agenda rest : Agenda} {text written : Text}
    {harvest final : Harvest}
    (h : Rewriting vocabulary (agenda, text, harvest) (rest, written, final)) :
    Rewriting vocabulary (agenda, front ++ text ++ back, harvest)
      (rest, front ++ written ++ back, final) := by
  have hstep (state next : Agenda × Draft) (hstep : Rewrites vocabulary state next) :
      Rewrites vocabulary (state.1, front ++ state.2.1 ++ back, state.2.2)
        (next.1, front ++ next.2.1 ++ back, next.2.2) := by
    cases hstep with
    | advance text hstep => exact .advance _ hstep
    | place agenda before after hframed hmem htext hpadding =>
        simpa using
          Rewrites.place agenda (front ++ before) (after ++ back) hframed hmem htext hpadding
  exact Relation.ReflTransGen.lift
    (fun state : Agenda × Draft ↦ (state.1, front ++ state.2.1 ++ back, state.2.2)) hstep _ _ h

/-- Rewriting only adds to the harvest. -/
theorem gathers (h : Rewriting vocabulary state next) :
    Gathers vocabulary (state.1, state.2.2) (next.1, next.2.2) := by
  induction h with
  | refl => exact .refl
  | tail _ hstep ih =>
      cases hstep with
      | advance _ hstep => exact ih.tail hstep
      | place => exact ih

/-- Fixed keys may be passed over. -/
theorem skip_all (agenda rest : Agenda) (draft : Draft) :
    Rewriting vocabulary (agenda ++ rest, draft) (rest, draft) := by
  induction agenda with
  | nil => exact .refl
  | cons fixed agenda ih =>
      exact Relation.ReflTransGen.head (.advance draft.1 (.skip fixed _ draft.2)) ih

end Rewriting

/-- A pass is a sequence of small steps that leaves these fixed keys behind. -/
def Pass.Rewrites (vocabulary : Vocabulary) (fixed : Agenda) (pass : Pass) : Prop :=
  ∀ rest harvest text,
    Rewriting vocabulary (fixed ++ rest, text, harvest) (rest, pass harvest text)

/-- What a choice puts into a framed slot comes about in small steps that leave these fixed keys
behind. -/
def Choice.Rewrites (vocabulary : Vocabulary) (fixed : Agenda) (choose : Choice) : Prop :=
  ∀ (rest : Agenda) (harvest : Harvest) (slot : Slot) (content : Text) (next : Harvest),
    slot.Framed → choose harvest slot.content = some (content, next) →
      Rewriting vocabulary (fixed ++ rest, slot.text, harvest)
        (rest, slot.withContent content, next)

section Passes

variable {vocabulary : Vocabulary} {recognize : Recognizer Slot} {choose : Choice}
  {fixed others : Agenda}

/-- Rewriting the first slot is a sequence of small steps if the choice is. -/
theorem rewrite_first_rewrites (hframing : Framing recognize)
    (hchoose : choose.Rewrites vocabulary fixed) :
    Pass.Rewrites vocabulary fixed (rewriteFirst recognize choose) := by
  intro rest harvest text
  simp only [rewriteFirst]
  split
  · exact Rewriting.skip_all fixed rest _
  · next before slot following hfirst =>
      obtain ⟨rfl, hframed⟩ := hframing.first_eq_some hfirst
      split
      · exact Rewriting.skip_all fixed rest _
      · next content next hchosen =>
          exact (hchoose rest harvest slot content next hframed hchosen).inside before following

/-- Rewriting a slot or leaving it is a sequence of small steps if the choice is. -/
theorem rewrite_slot_rewrites (hchoose : choose.Rewrites vocabulary []) {slot : Slot}
    (hframed : slot.Framed) (agenda : Agenda) (harvest : Harvest) :
    Rewriting vocabulary (agenda, slot.text, harvest)
      (agenda, rewriteSlot choose harvest slot) := by
  simp only [rewriteSlot]
  split
  · exact .refl
  · next content next hchosen => exact hchoose agenda harvest slot content next hframed hchosen

/-- Rewriting every slot is a sequence of small steps if rewriting each one is. -/
theorem rewrite_cuts_rewriting {σ : Type} {step : σ → Slot → Text × σ} (gathered : σ → Harvest)
    (hframing : Framing recognize) (agenda : Agenda)
    (hstep : ∀ state slot, slot.Framed →
      Rewriting vocabulary (agenda, slot.text, gathered state)
        (agenda, (step state slot).1, gathered (step state slot).2))
    (state : σ) (text : Text) :
    Rewriting vocabulary (agenda, text, gathered state)
      (agenda, ((Cuts.all recognize text).rewrite step state).1,
        gathered ((Cuts.all recognize text).rewrite step state).2) := by
  refine Cuts.all_induction hframing.consuming
    (motive := fun text cuts ↦ ∀ state, Rewriting vocabulary (agenda, text, gathered state)
      (agenda, (cuts.rewrite step state).1, gathered (cuts.rewrite step state).2))
    (fun text _ state ↦ .refl) ?_ text state
  intro text before slot rest hfirst ih state
  obtain ⟨rfl, hframed⟩ := hframing.first_eq_some hfirst
  have hslot := (hstep state slot hframed).inside before rest
  have hrest := (ih (step state slot).2).inside (before ++ (step state slot).1) []
  rw [Cuts.rewrite_cons]
  simp only [List.append_nil] at hrest
  exact hslot.trans hrest

theorem rewrite_each_rewrites (hframing : Framing recognize)
    (hchoose : choose.Rewrites vocabulary []) :
    Pass.Rewrites vocabulary [] (rewriteEach recognize choose) := fun agenda harvest text ↦
  rewrite_cuts_rewriting id hframing agenda
    (fun harvest _ hframed ↦ rewrite_slot_rewrites hchoose hframed agenda harvest) harvest text

/-- One pass before others leaves its fixed keys behind first. -/
theorem in_order_cons_rewrites {pass : Pass} {passes : List Pass}
    (hpass : Pass.Rewrites vocabulary fixed pass)
    (hothers : Pass.Rewrites vocabulary others (inOrder passes)) :
    Pass.Rewrites vocabulary (fixed ++ others) (inOrder (pass :: passes)) := by
  intro rest harvest text
  have hfirst := hpass (others ++ rest) harvest text
  rw [List.append_assoc]
  exact hfirst.trans (hothers rest _ _)

/-- Some passes before others leave their fixed keys behind first. -/
theorem in_order_append_rewrites {passes more : List Pass}
    (hpasses : Pass.Rewrites vocabulary fixed (inOrder passes))
    (hmore : Pass.Rewrites vocabulary others (inOrder more)) :
    Pass.Rewrites vocabulary (fixed ++ others) (inOrder (passes ++ more)) := by
  intro rest harvest text
  have happend : inOrder (passes ++ more) harvest text =
      inOrder more (inOrder passes harvest text).2 (inOrder passes harvest text).1 := by
    simp only [inOrder, List.foldl_append]
  rw [List.append_assoc, happend]
  exact (hpasses (others ++ rest) harvest text).trans (hmore rest _ _)

/-- No pass at all leaves fixed keys behind. -/
theorem in_order_nil_rewrites : Pass.Rewrites vocabulary fixed (inOrder []) := fun rest harvest text ↦
  Rewriting.skip_all fixed rest (text, harvest)

/-- Passes one after another are a sequence of small steps if each of them is. -/
theorem in_order_rewrites {passes : List Pass}
    (h : ∀ pass ∈ passes, Pass.Rewrites vocabulary [] pass) :
    Pass.Rewrites vocabulary [] (inOrder passes) := by
  induction passes with
  | nil => exact in_order_nil_rewrites
  | cons pass passes ih =>
      exact in_order_cons_rewrites (h pass (List.mem_cons_self ..))
        (ih fun other hmem ↦ h other (List.mem_cons_of_mem _ hmem))

/-- A choice that puts the reference to the text it takes, with a space behind it or not. -/
theorem chosen_padded_rewriting {agenda rest : Agenda} {harvest next final : Harvest}
    {taking : Taking} {slot : Slot} {content padding : Text} (hframed : slot.Framed)
    (hstep : Step vocabulary (agenda, harvest) taking (rest, next))
    (htext : taking.text = slot.content ∨ taking.text = Text.trim slot.content)
    (hpadding : padding = [] ∨ padding = [' '])
    (hchosen : ((taking.reference harvest.scope).text, next) = (content, final)) :
    Rewriting vocabulary (agenda, slot.text, harvest)
      (rest, slot.withContent (content ++ padding), final) := by
  obtain ⟨rfl, rfl⟩ := Prod.mk.inj hchosen
  have hmem : taking ∈ next.taken := by
    rw [show next.taken = _ from hstep.taken_eq]
    exact List.mem_cons_self ..
  have hplace : Rewrites vocabulary _ _ := .place rest [] [] hframed hmem htext hpadding
  rw [show next.scope = harvest.scope from hstep.scope_eq] at hplace
  exact (Relation.ReflTransGen.single (.advance _ (.take hstep))).tail (by simpa using hplace)

/-- A choice that puts nothing but the reference. -/
theorem chosen_rewriting {agenda rest : Agenda} {harvest next final : Harvest} {taking : Taking}
    {slot : Slot} {content : Text} (hframed : slot.Framed)
    (hstep : Step vocabulary (agenda, harvest) taking (rest, next))
    (htext : taking.text = slot.content ∨ taking.text = Text.trim slot.content)
    (hchosen : ((taking.reference harvest.scope).text, next) = (content, final)) :
    Rewriting vocabulary (agenda, slot.text, harvest)
      (rest, slot.withContent content, final) := by
  simpa using chosen_padded_rewriting hframed hstep htext (.inl rfl) hchosen

end Passes

section Choices

variable {vocabulary : Vocabulary}

theorem page_text_rewrites (key : Text) :
    (pageText key).Rewrites vocabulary [(.own, key)] := by
  intro rest harvest slot content next hframed hchosen
  obtain ⟨-, htaken⟩ := (page_text_takes_as key).eq_some.mp hchosen
  exact chosen_rewriting hframed (.fixed rest harvest ⟨.own, key, slot.content⟩) (.inl rfl) htaken

theorem trimmed_page_text_rewrites (key : Text) :
    (trimmedPageText key).Rewrites vocabulary [(.own, key)] := by
  intro rest harvest slot content next hframed hchosen
  obtain ⟨-, htaken⟩ := (trimmed_page_text_takes_as key).eq_some.mp hchosen
  exact chosen_rewriting hframed (.fixed rest harvest ⟨.own, key, Text.trim slot.content⟩)
    (.inr rfl) htaken

theorem numbered_text_rewrites {category : Text} (hcategory : category ∈ vocabulary.categories) :
    (numberedText category).Rewrites vocabulary [] := by
  intro rest harvest slot content next hframed hchosen
  obtain ⟨-, htaken⟩ := (numbered_text_takes_as category).eq_some.mp hchosen
  exact chosen_rewriting hframed (.numbered rest harvest hcategory _) (.inr rfl) htaken

theorem strict_text_rewrites {category : Text} (hcategory : category ∈ vocabulary.categories) :
    (strictText category).Rewrites vocabulary [] := by
  intro rest harvest slot content next hframed hchosen
  obtain ⟨-, htaken⟩ := (strict_text_takes_as category).eq_some.mp hchosen
  exact chosen_rewriting hframed (.numbered rest harvest hcategory _) (.inr rfl) htaken

theorem header_text_rewrites : headerText.Rewrites vocabulary [] := by
  intro rest harvest slot content next hframed hchosen
  obtain ⟨-, htaken⟩ := header_text_takes_as.eq_some.mp hchosen
  exact chosen_rewriting hframed (.header rest harvest _) (.inr rfl) htaken

theorem label_text_rewrites : labelText.Rewrites vocabulary [] := by
  intro rest harvest slot content next hframed hchosen
  obtain ⟨-, htaken⟩ := label_text_takes_as.eq_some.mp hchosen
  exact chosen_rewriting hframed (.cell rest harvest _) (.inl rfl) htaken

theorem button_text_rewrites : (buttonText vocabulary.sharedButtons).Rewrites vocabulary [] := by
  intro rest harvest slot content next hframed hchosen
  obtain ⟨-, htaken⟩ := (button_text_takes_as vocabulary.sharedButtons).eq_some.mp hchosen
  rw [takeButton] at htaken
  split at htaken
  · next initial key hget =>
      exact chosen_rewriting hframed (.label rest harvest (Vocabulary.button_label_mem hget))
        (.inr rfl) htaken
  · exact chosen_rewriting hframed (.numbered rest harvest Vocabulary.button_category_mem _)
      (.inr rfl) htaken

/-- A shared text and what is written behind its reference. -/
theorem shared_text_rewriting {key : Text} (rest : Agenda) {harvest next : Harvest} {slot : Slot}
    {content padding : Text} (hframed : slot.Framed) (hpadding : padding = [] ∨ padding = [' '])
    (htaken : harvest.addShared key (Text.trim slot.content) = (content, next)) :
    Rewriting vocabulary ((.shared, key) :: rest, slot.text, harvest)
      (rest, slot.withContent (content ++ padding), next) :=
  chosen_padded_rewriting hframed (.fixed rest harvest ⟨.shared, key, Text.trim slot.content⟩)
    (.inr rfl) hpadding htaken

theorem shared_text_rewrites (key : Text) :
    (sharedText key).Rewrites vocabulary [(.shared, key)] := by
  intro rest harvest slot content next hframed hchosen
  obtain ⟨-, htaken⟩ := (shared_text_takes_as key).eq_some.mp hchosen
  simpa using shared_text_rewriting rest hframed (.inl rfl) htaken

theorem rights_text_rewrites :
    rightsText.Rewrites vocabulary [(.shared, "footer_rights".toList)] := by
  intro rest harvest slot content next hframed hchosen
  obtain ⟨-, htaken⟩ := rights_text_takes_as.eq_some.mp hchosen
  obtain ⟨rfl, rfl⟩ := Prod.mk.inj htaken
  exact shared_text_rewriting rest hframed (.inr rfl) rfl

end Choices

section Literals

variable {vocabulary : Vocabulary}

/-- Replacing a literal by the reference to a text that was taken. -/
theorem replace_up_to_rewriting {harvest : Harvest} {taking : Taking} {slot : Slot}
    (hframed : slot.Framed) (hmem : taking ∈ harvest.taken) (htext : taking.text = slot.content)
    (agenda : Agenda) (limit : Nat) (text : Text) :
    Rewriting vocabulary (agenda, text, harvest)
      (agenda, (Text.replaceUpTo slot.text (slot.withContent (taking.reference harvest.scope).text)
        limit text).flatten, harvest) := by
  induction limit generalizing text with
  | zero => simpa [Text.replaceUpTo] using Relation.ReflTransGen.refl
  | succ limit ih =>
      simp only [Text.replaceUpTo]
      split
      · simpa using Relation.ReflTransGen.refl
      · next before following hcut =>
          obtain rfl := Text.cut_eq_some hcut
          have hplace : Rewrites vocabulary _ _ :=
            .place agenda before following hframed hmem (.inl htext) (.inl rfl)
          have hrest := (ih following).inside
            (before ++ slot.withContent (taking.reference harvest.scope).text) []
          simp only [List.append_nil] at hplace hrest
          simpa using Relation.ReflTransGen.head hplace hrest

/-- Sharing a literal label is a sequence of small steps if the pieces around it are framed. -/
theorem share_literal_rewrites {opening label closing key : Text}
    (hopening : opening.getLast?.any isFrameEnd = true)
    (hclosing : closing.head?.any isFrameStart = true)
    (hlabel : (label, key) ∈ vocabulary.labels) :
    Pass.Rewrites vocabulary [] (shareLiteral opening label closing key) := by
  intro agenda harvest text
  have hframed : Framed ⟨opening, label, closing⟩ := ⟨hopening, hclosing⟩
  simp only [shareLiteral]
  split
  · have hstep : Step vocabulary _ _ _ := .label agenda harvest hlabel
    have hnonempty : opening ++ label ++ closing ≠ [] := by
      simp [hframed.opening_ne_nil]
    have hmem : ⟨.shared, key, label⟩ ∈ (harvest.addShared key label).2.taken :=
      List.mem_cons_self ..
    have hreplace : Rewriting vocabulary _ _ :=
      replace_up_to_rewriting hframed hmem rfl agenda text.length text
    rw [Text.replaceAll, if_neg hnonempty]
    exact Relation.ReflTransGen.head (.advance text (.take hstep)) hreplace
  · exact .refl

theorem share_link_labels_rewrites {labels : Entries Text}
    (hlabels : ∀ entry ∈ labels, entry ∈ vocabulary.labels) :
    Pass.Rewrites vocabulary [] (shareLinkLabels labels) := by
  refine in_order_rewrites fun pass hmem ↦ ?_
  obtain ⟨⟨label, key⟩, hentry, rfl⟩ := List.mem_map.mp hmem
  exact share_literal_rewrites (by decide) (by decide) (hlabels _ hentry)

end Literals

section Places

variable {vocabulary : Vocabulary}

/-- Taking the texts of the head is a sequence of small steps over the keys of the head. -/
theorem head_texts_rewrites : Pass.Rewrites vocabulary (agendaOf .own headKeys) headTexts := by
  have hmetas {entries : List (Text × Text)} (hentries : ∀ entry ∈ entries, entry ∈ metaTexts) :
      Pass.Rewrites vocabulary (agendaOf .own (entries.map Prod.snd))
        (inOrder (entries.map fun entry ↦
          rewriteFirst (recognizeValue entry.1) (pageText entry.2))) := by
    induction entries with
    | nil => exact in_order_nil_rewrites
    | cons entry entries ih =>
        have hreads := reads_meta (hentries entry (List.mem_cons_self ..))
        exact in_order_cons_rewrites (rewrite_first_rewrites hreads.framing (page_text_rewrites entry.2))
          (ih fun other hmem ↦ hentries other (List.mem_cons_of_mem _ hmem))
  exact in_order_cons_rewrites
    (rewrite_first_rewrites framing_title (trimmed_page_text_rewrites _)) (hmetas fun _ hmem ↦ hmem)

/-- Taking the texts of one line is a sequence of small steps. -/
theorem line_texts_rewrites : Pass.Rewrites vocabulary [] (lineTexts vocabulary) := by
  refine in_order_rewrites fun pass hmem ↦ ?_
  simp only [List.mem_append, List.mem_map, List.mem_cons, List.not_mem_nil, or_false] at hmem
  rcases hmem with ((((⟨element, helement, rfl⟩ | rfl | rfl) | ⟨cssClass, hclass, rfl⟩) |
    ⟨cssClass, hclass, rfl⟩) | rfl) | ⟨cssClass, hclass, rfl⟩
  · exact rewrite_first_rewrites (framing_element element)
      (numbered_text_rewrites (Vocabulary.element_category_mem helement))
  · exact rewrite_each_rewrites reads_header.framing header_text_rewrites
  · exact rewrite_each_rewrites reads_label.framing label_text_rewrites
  · exact rewrite_first_rewrites (reads_span cssClass).framing
      (strict_text_rewrites (Vocabulary.span_category_mem hclass))
  · exact rewrite_first_rewrites (reads_division cssClass).framing
      (strict_text_rewrites (Vocabulary.div_category_mem hclass))
  · exact rewrite_first_rewrites (reads_classed _ _).framing button_text_rewrites
  · exact rewrite_first_rewrites (reads_classed _ _).framing
      (strict_text_rewrites (Vocabulary.link_category_mem hclass))

/-- The pass over one numbered line. -/
def numberedLine (vocabulary : Vocabulary) (regions : List Region) (number : Nat) : Pass :=
  fun harvest line ↦
    if regions.any (fun region ↦ region.covers number) || Text.contains line Reference.mark then
      (line, harvest)
    else lineTexts vocabulary harvest line

/-- The first line is rewritten first, and the others with the harvest after it. -/
theorem lines_texts_cons (regions : List Region) (number : Nat) (harvest : Harvest) (line : Text)
    (lines : List Text) :
    linesTexts vocabulary regions number harvest (line :: lines) =
      ((numberedLine vocabulary regions number harvest line).1 ::
          (linesTexts vocabulary regions (number + 1)
            (numberedLine vocabulary regions number harvest line).2 lines).1,
        (linesTexts vocabulary regions (number + 1)
          (numberedLine vocabulary regions number harvest line).2 lines).2) := rfl

/-- Lines stay lines. -/
theorem lines_texts_length (regions : List Region) (number : Nat) (harvest : Harvest)
    (lines : List Text) :
    (linesTexts vocabulary regions number harvest lines).1.length = lines.length := by
  induction lines generalizing number harvest with
  | nil => rfl
  | cons line lines ih =>
      rw [lines_texts_cons, List.length_cons, List.length_cons, ih]

/-- Taking the texts of a numbered line is a sequence of small steps. -/
theorem numbered_line_rewrites (regions : List Region) (number : Nat) :
    Pass.Rewrites vocabulary [] (numberedLine vocabulary regions number) := by
  intro agenda harvest line
  simp only [numberedLine]
  split
  · exact .refl
  · exact line_texts_rewrites agenda harvest line

/-- Taking the texts of the lines is a sequence of small steps in the document. -/
theorem lines_texts_rewriting (agenda : Agenda) (regions : List Region) (number : Nat)
    (harvest : Harvest) (lines : List Text) :
    Rewriting vocabulary (agenda, Text.joinWith ['\n'] lines, harvest)
      (agenda, Text.joinWith ['\n'] (linesTexts vocabulary regions number harvest lines).1,
        (linesTexts vocabulary regions number harvest lines).2) := by
  induction lines generalizing number harvest with
  | nil => exact .refl
  | cons line lines ih =>
      have hline : Rewriting vocabulary _ _ :=
        numbered_line_rewrites regions number agenda harvest line
      rw [lines_texts_cons]
      rcases hwritten : numberedLine vocabulary regions number harvest line with ⟨written, next⟩
      have hlength : (linesTexts vocabulary regions (number + 1) next lines).1.length = _ :=
        lines_texts_length regions (number + 1) next lines
      have hrest := ih (number + 1) next
      rcases hlines : linesTexts vocabulary regions (number + 1) next lines with ⟨others, final⟩
      rw [hwritten] at hline
      rw [hlines] at hlength hrest
      by_cases hempty : lines = []
      · obtain rfl : others = [] := by simpa [hempty] using hlength
        subst hempty
        simpa using hline.trans (by simpa using hrest.inside written [])
      · have hothers : others ≠ [] := by
          rwa [← List.length_pos_iff, hlength, List.length_pos_iff]
        rw [Text.join_with_cons_of_ne_nil hempty, Text.join_with_cons_of_ne_nil hothers]
        have hfirst := hline.inside [] (['\n'] ++ Text.joinWith ['\n'] lines)
        have hothers := hrest.inside (written ++ ['\n']) []
        simpa using hfirst.trans (by simpa using hothers)

/-- Taking the body text is a sequence of small steps. -/
theorem body_rewriting (agenda : Agenda) {harvest next : Harvest} {html template : Text}
    (h : bodyTexts? vocabulary harvest html = some (template, next)) :
    Rewriting vocabulary (agenda, html, harvest) (agenda, template, next) := by
  simp only [bodyTexts?, Option.map_eq_some_iff] at h
  obtain ⟨regions, -, h⟩ := h
  obtain ⟨rfl, rfl⟩ := Prod.mk.inj h
  have hlines : Rewriting vocabulary _ _ :=
    lines_texts_rewriting agenda regions 0 harvest (Text.splitAt '\n' html)
  rwa [Text.join_split_at] at hlines

/-- The passes over the content of a footer are sequences of small steps over its keys. -/
theorem footer_passes_rewrites (brand : Text) :
    Pass.Rewrites vocabulary (agendaOf .shared footerKeys) (footerPasses vocabulary brand) := by
  have htagline : Pass.Rewrites vocabulary (agendaOf .shared ["footer_tagline".toList])
      (inOrder [rewriteFirst (plainContent "<p class=\"footer-tagline\">".toList "</p>".toList)
        (sharedText "footer_tagline".toList)]) :=
    in_order_cons_rewrites (rewrite_first_rewrites (reads_plain (by decide) (by decide)).framing
      (shared_text_rewrites _)) in_order_nil_rewrites
  have hheadings : Pass.Rewrites vocabulary []
      (inOrder (vocabulary.footerHeadings.map fun entry ↦
        shareLiteral "<h4>".toList entry.1 "</h4>".toList entry.2)) := by
    refine in_order_rewrites fun pass hmem ↦ ?_
    obtain ⟨entry, hentry, rfl⟩ := List.mem_map.mp hmem
    exact share_literal_rewrites (by decide) (by decide) (by simp [Vocabulary.labels, hentry])
  have hdisclaimer : Pass.Rewrites vocabulary (agendaOf .shared ["footer_disclaimer".toList])
      (inOrder [shareLinkLabels vocabulary.footerLinks,
        rewriteFirst (plainContent "<p class=\"disclaimer\">".toList "</p>".toList)
          (sharedText "footer_disclaimer".toList)]) := by
    have hlinks : Pass.Rewrites vocabulary [] (shareLinkLabels vocabulary.footerLinks) :=
      share_link_labels_rewrites fun entry hentry ↦ by simp [Vocabulary.labels, hentry]
    exact in_order_cons_rewrites hlinks (in_order_cons_rewrites
      (rewrite_first_rewrites (reads_plain (by decide) (by decide)).framing (shared_text_rewrites _))
      in_order_nil_rewrites)
  have hrights : Pass.Rewrites vocabulary (agendaOf .shared ["footer_rights".toList])
      (inOrder (if brand.isEmpty then []
        else [rewriteFirst (recognizeRights brand) rightsText])) := by
    split
    · exact in_order_nil_rewrites
    · exact in_order_cons_rewrites (rewrite_first_rewrites (reads_rights brand).framing
        rights_text_rewrites) in_order_nil_rewrites
  exact in_order_append_rewrites (in_order_append_rewrites
    (in_order_append_rewrites htagline hheadings) hdisclaimer) hrights

/-- Sharing the texts of the footer is a sequence of small steps over its keys. -/
theorem footer_rewrites (brand : Text) :
    Pass.Rewrites vocabulary (agendaOf .shared footerKeys) (footer vocabulary brand) := by
  refine rewrite_first_rewrites framing_footer fun rest harvest slot content next _ hchosen ↦ ?_
  have hpasses : Rewriting vocabulary _ _ :=
    footer_passes_rewrites brand rest harvest slot.content
  rw [Option.some.inj hchosen] at hpasses
  exact hpasses.inside slot.opening slot.closing

/-- Sharing the texts of the region popup is a sequence of small steps over its keys. -/
theorem region_popup_rewrites :
    Pass.Rewrites vocabulary (agendaOf .shared popupKeys) (regionPopup vocabulary) := by
  have hnames : Pass.Rewrites vocabulary []
      (inOrder (vocabulary.regionNames.map fun entry ↦
        shareLiteral "<span class=\"region-name\">".toList entry.1 "</span>".toList entry.2)) := by
    refine in_order_rewrites fun pass hmem ↦ ?_
    obtain ⟨entry, hentry, rfl⟩ := List.mem_map.mp hmem
    exact share_literal_rewrites (by decide) (by decide) (by simp [Vocabulary.labels, hentry])
  have hplaces : Pass.Rewrites vocabulary (agendaOf .shared popupKeys)
      (inOrder [rewriteFirst recognizePopupTitle (sharedText "region_title".toList),
        rewriteFirst (plainContent "<p class=\"region-popup-subtitle\">".toList "</p>".toList)
          (sharedText "region_subtitle".toList),
        rewriteFirst (Slot.between "<p class=\"region-discount\">".toList "</p>".toList)
          (sharedText "region_discount_text".toList)]) :=
    in_order_cons_rewrites
      (rewrite_first_rewrites reads_popup_title.framing (shared_text_rewrites _))
      (in_order_cons_rewrites
        (rewrite_first_rewrites (reads_plain (by decide) (by decide)).framing (shared_text_rewrites _))
        (in_order_cons_rewrites
          (rewrite_first_rewrites (framing_between (by decide) (by decide))
            (shared_text_rewrites _)) in_order_nil_rewrites))
  exact in_order_append_rewrites hplaces hnames

end Places

end LocalizedSite.Extract
