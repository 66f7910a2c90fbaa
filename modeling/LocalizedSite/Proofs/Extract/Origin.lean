import LocalizedSite.Proofs.Extract.Choices
import LocalizedSite.Proofs.Extract.Run
import LocalizedSite.Proofs.Placeholder
import LocalizedSite.Proofs.Text.Blanks

/-!
# Where extracted texts come from

`Origin` lists the places from which an extraction takes texts, each with its keys and with what is
known of a text that was found there: whether it is literal, and which characters it cannot have.
`Run.traced` says that every text taken along a run has an origin, so that a fact about all texts is
proved place by place. A text that is worth extracting is not blank, since what is left of it without
inline tags is not; if it holds no placeholder it is literal (`is_literal_of_worth`).
-/

namespace LocalizedSite.Extract

open Slot Harvest Text

section Worth

/-- A literal text has a character that is not blank, and no placeholder. -/
theorem is_literal_iff {text : Text} :
    isLiteral text = true ↔ withoutBlanks text ≠ [] ∧ Placeholder.occursIn text = false := by
  rw [ne_eq, ← trim_eq_nil_iff]
  simp [isLiteral]

/-- Trimming leaves a literal text literal. -/
theorem is_literal_trim {text : Text} (h : isLiteral text = true) :
    isLiteral (trim text) = true := by
  obtain ⟨hblank, hliteral⟩ := is_literal_iff.mp h
  obtain ⟨front, back, htext, -, -⟩ := trim_spec text
  refine is_literal_iff.mpr ⟨by rwa [without_blanks_trim], ?_⟩
  exact Placeholder.occurs_in_of_piece ⟨front, back, htext.symm⟩ hliteral

/-- An inline tag is read off the text with its brackets. -/
theorem recognize_inline_tag_eq_some {text rest : Text} {found : Unit}
    (h : recognizeInlineTag text = some (found, rest)) :
    ∃ inside, text = '<' :: inside ++ '>' :: rest := by
  simp only [recognizeInlineTag, bind, Option.bind_eq_some_iff] at h
  obtain ⟨following, hopening, h⟩ := h
  rcases hspan : following.span (· != '>') with ⟨inside, behind⟩
  simp only [hspan] at h
  obtain ⟨last, hclosing, h⟩ := h
  obtain ⟨rfl, -, -⟩ := span_spec hspan
  split at h
  · exact absurd h (by simp)
  · obtain ⟨-, rfl⟩ := Prod.mk.inj (Option.some.inj h)
    refine ⟨inside, ?_⟩
    rw [after_eq_some.mp hopening, after_eq_some.mp hclosing]
    simp

theorem consuming_inline_tag : Recognizer.Consuming recognizeInlineTag := by
  intro text found rest h
  obtain ⟨inside, rfl⟩ := recognize_inline_tag_eq_some h
  simp only [List.length_append, List.length_cons]
  omega

/-- What is left of a text without its inline tags are characters of the text. -/
theorem mem_of_mem_untagged (text : Text) :
    ∀ character ∈ (Cuts.all recognizeInlineTag text).text fun _ ↦ [], character ∈ text := by
  refine Cuts.all_induction consuming_inline_tag
    (motive := fun text cuts ↦ ∀ character ∈ cuts.text fun _ ↦ [], character ∈ text)
    (fun text _ character hmem ↦ by simpa [Cuts.text] using hmem) ?_ text
  intro text before found rest hfirst ih character hmem
  obtain ⟨occurrence, rfl, hread, -⟩ := Recognizer.first_eq_some hfirst
  obtain ⟨inside, rfl⟩ := recognize_inline_tag_eq_some hread
  have hmem : character ∈ before ∨
      character ∈ (Cuts.all recognizeInlineTag rest).text fun _ ↦ [] := by
    simpa [Cuts.text] using hmem
  rcases hmem with hmem | hmem
  · simp [hmem]
  · simp [ih character hmem]

/-- A text that is worth extracting is not blank. -/
theorem not_blank_of_worth {text : Text} (h : isWorth text = true) : withoutBlanks text ≠ [] := by
  simp only [isWorth, isNegligible, Bool.not_eq_true', Bool.or_eq_false_iff, decide_eq_false_iff_not,
    not_lt] at h
  have hvisible : visibleText text ≠ [] := by
    intro hnil
    have hlength := h.1.1.1.1
    rw [hnil] at hlength
    exact absurd hlength (by decide)
  -- A character that is left without the tags is one of the text, and so is none of them a blank.
  rw [visibleText, ne_eq, trim_eq_nil_iff] at hvisible
  obtain ⟨character, hmem⟩ := List.exists_mem_of_ne_nil _ hvisible
  obtain ⟨hleft, hblank⟩ := List.mem_filter.mp hmem
  exact List.ne_nil_of_mem (List.mem_filter.mpr ⟨mem_of_mem_untagged text character hleft, hblank⟩)

/-- What is taken of a text that is worth it and has no placeholder is literal. -/
theorem is_literal_of_worth {text : Text} (h : isStrictlyWorth text = true) :
    isLiteral (trim text) = true := by
  simp only [isStrictlyWorth, Bool.and_eq_true, Bool.not_eq_true'] at h
  refine is_literal_trim (is_literal_iff.mpr ⟨not_blank_of_worth ?_, h.1⟩)
  rw [isWorth, h.2, Bool.not_false]

end Worth

/-- A key of a heading or a paragraph. -/
def IsElementKey (key : Text) : Prop :=
  ∃ element ∈ textElements, ∃ number, key = KeyCounts.numbered element number

/-- A key of a text in linked data. -/
def IsLinkedDataKey (key : Text) : Prop :=
  ∃ block, ∃ field ∈ textFields, ∃ number, key = linkedDataKey block field number

/-- A text comes from one of the places where extraction looks for texts. -/
inductive Origin (vocabulary : Vocabulary) : Taking → Prop
  /-- The title of the page. -/
  | title {text : Text} (hliteral : isLiteral text = true) :
      Origin vocabulary ⟨.own, "meta_title".toList, text⟩
  /-- The value of an attribute in the metadata. -/
  | value {key text : Text} (hkey : key ∈ metaTexts.map Prod.snd)
      (hliteral : isLiteral text = true) (hunquoted : '"' ∉ text) :
      Origin vocabulary ⟨.own, key, text⟩
  /-- A field of linked data. -/
  | linkedData (block : Nat) {field : Text} (hfield : field ∈ textFields) (number : Nat)
      (text : Text) : Origin vocabulary ⟨.own, linkedDataKey block field number, text⟩
  /-- A heading or a paragraph. -/
  | element {element : Text} (helement : element ∈ textElements) (number : Nat) {text : Text}
      (hblank : withoutBlanks text ≠ []) :
      Origin vocabulary ⟨.own, KeyCounts.numbered element number, text⟩
  /-- An element of a known class or a button. -/
  | classed {category : Text} (hcategory : category ∈ vocabulary.categories) (number : Nat)
      {text : Text} (hliteral : isLiteral text = true) (huntagged : '<' ∉ text) :
      Origin vocabulary ⟨.own, KeyCounts.numbered category number, text⟩
  /-- A table header. -/
  | header {text : Text} (hliteral : isLiteral text = true) (huntagged : '<' ∉ text) :
      Origin vocabulary ⟨.shared, headerKey text, text⟩
  /-- The label of a table cell. -/
  | cell {text : Text} (hliteral : isLiteral text = true) (hunquoted : '"' ∉ text) :
      Origin vocabulary ⟨.shared, labelKey text, text⟩
  /-- A label of the vocabulary. -/
  | label {label key : Text} (hlabel : (label, key) ∈ vocabulary.labels) :
      Origin vocabulary ⟨.shared, key, label⟩
  /-- A place in the footer or in the region popup. -/
  | place {key text : Text} (hkey : key ∈ footerKeys ++ popupKeys)
      (hliteral : isLiteral text = true)
      (huntagged : key = "region_discount_text".toList ∨ '<' ∉ text) :
      Origin vocabulary ⟨.shared, key, text⟩

/-- Every text of a harvest has an origin. -/
def Harvest.Traced (vocabulary : Vocabulary) (harvest : Harvest) : Prop :=
  ∀ taking ∈ harvest.taken, Origin vocabulary taking

/-- A pass keeps an invariant of the harvest. -/
def Pass.Keeps (invariant : Harvest → Prop) (pass : Pass) : Prop :=
  ∀ harvest text, invariant harvest → invariant (pass harvest text).2

/-- A choice keeps an invariant of the harvest if the content has only characters of a class. -/
def Choice.Keeps (invariant : Harvest → Prop) (allowed : Char → Bool) (choose : Choice) : Prop :=
  ∀ harvest content written next, (∀ character ∈ content, allowed character = true) →
    choose harvest content = some (written, next) → invariant harvest → invariant next

section Passes

variable {invariant : Harvest → Prop} {allowed : Char → Bool} {recognize : Recognizer Slot}
  {choose : Choice}

theorem rewrite_first_keeps (hreads : Reads allowed recognize)
    (hchoose : choose.Keeps invariant allowed) :
    Pass.Keeps invariant (rewriteFirst recognize choose) := by
  intro harvest text h
  simp only [rewriteFirst]
  split
  · exact h
  · next before slot following hfirst =>
      split
      · exact h
      · next content next hchosen =>
          exact hchoose harvest slot.content content next (hreads.first_eq_some hfirst) hchosen h

theorem rewrite_each_keeps (hreads : Reads allowed recognize)
    (hchoose : choose.Keeps invariant allowed) :
    Pass.Keeps invariant (rewriteEach recognize choose) := by
  intro harvest text h
  refine Cuts.rewrite_keeps invariant (Cuts.all recognize text) (fun harvest slot hmem h ↦ ?_) h
  obtain ⟨occurrence, rest, hread⟩ := Cuts.read_of_mem_all hreads.framing.consuming hmem
  simp only [rewriteSlot]
  split
  · exact h
  · next content next hchosen =>
      exact hchoose harvest slot.content content next (hreads.content hread) hchosen h

theorem in_order_keeps {passes : List Pass} (h : ∀ pass ∈ passes, Pass.Keeps invariant pass) :
    Pass.Keeps invariant (inOrder passes) := by
  induction passes with
  | nil => exact fun harvest text hinvariant ↦ hinvariant
  | cons pass passes ih =>
      intro harvest text hinvariant
      have hpass := h pass (List.mem_cons_self ..) harvest text hinvariant
      exact ih (fun other hmem ↦ h other (List.mem_cons_of_mem _ hmem)) _ _ hpass

end Passes

section Choices

variable {vocabulary : Vocabulary} {harvest next : Harvest} {taking : Taking}

/-- A text with an origin may be taken. -/
theorem Harvest.Traced.take (h : harvest.Traced vocabulary) (horigin : Origin vocabulary taking)
    (hnext : next.taken = taking :: harvest.taken) : next.Traced vocabulary := by
  intro other hmem
  rw [hnext] at hmem
  rcases List.mem_cons.mp hmem with rfl | hmem
  · exact horigin
  · exact h other hmem

/-- What is taken from a content without markup has none. -/
theorem untagged_trim {content : Text} (h : ∀ character ∈ content, isUntagged character = true) :
    '<' ∉ trim content := by
  intro hmem
  simpa using h '<' (mem_of_mem_trim hmem)

theorem page_text_keeps {key : Text} (hkey : key ∈ metaTexts.map Prod.snd) :
    (pageText key).Keeps (Traced vocabulary) isUnquoted := by
  intro harvest content written next hallowed hchosen h
  obtain ⟨hliteral, htaken⟩ := (page_text_takes_as key).eq_some.mp hchosen
  obtain ⟨-, rfl⟩ := Prod.mk.inj htaken
  have hunquoted : '"' ∉ content := fun hmem ↦ by simpa using hallowed '"' hmem
  exact h.take (.value hkey hliteral hunquoted) rfl

theorem title_text_keeps :
    (trimmedPageText "meta_title".toList).Keeps (Traced vocabulary) fun _ ↦ true := by
  intro harvest content written next _ hchosen h
  obtain ⟨hliteral, htaken⟩ := (trimmed_page_text_takes_as _).eq_some.mp hchosen
  obtain ⟨-, rfl⟩ := Prod.mk.inj htaken
  exact h.take (.title (is_literal_trim hliteral)) rfl

theorem numbered_text_keeps {element : Text} (helement : element ∈ textElements) :
    (numberedText element).Keeps (Traced vocabulary) fun _ ↦ true := by
  intro harvest content written next _ hchosen h
  obtain ⟨hworth, htaken⟩ := (numbered_text_takes_as element).eq_some.mp hchosen
  obtain ⟨-, rfl⟩ := Prod.mk.inj htaken
  have hblank : withoutBlanks (trim content) ≠ [] := by
    rw [without_blanks_trim]
    exact not_blank_of_worth hworth
  exact h.take (.element helement _ hblank) rfl

theorem strict_text_keeps {category : Text} (hcategory : category ∈ vocabulary.categories) :
    (strictText category).Keeps (Traced vocabulary) isUntagged := by
  intro harvest content written next hallowed hchosen h
  obtain ⟨hworth, htaken⟩ := (strict_text_takes_as category).eq_some.mp hchosen
  obtain ⟨-, rfl⟩ := Prod.mk.inj htaken
  exact h.take (.classed hcategory _ (is_literal_of_worth hworth) (untagged_trim hallowed)) rfl

/-- No table header has a brace, so each that is worth it is literal. -/
theorem header_text_keeps :
    headerText.Keeps (Traced vocabulary) fun character ↦ character != '<' && character != '\x7b' := by
  intro harvest content written next hallowed hchosen h
  obtain ⟨hworth, htaken⟩ := header_text_takes_as.eq_some.mp hchosen
  obtain ⟨-, rfl⟩ := Prod.mk.inj htaken
  have huntagged : '<' ∉ trim content := fun hmem ↦ by
    simpa using hallowed '<' (mem_of_mem_trim hmem)
  have hbrace : '\x7b' ∉ trim content := fun hmem ↦ by
    simpa using hallowed '\x7b' (mem_of_mem_trim hmem)
  have hliteral : isLiteral (trim content) = true :=
    is_literal_iff.mpr ⟨not_blank_of_worth hworth, Placeholder.occurs_in_of_not_mem hbrace⟩
  exact h.take (.header hliteral huntagged) rfl

theorem label_text_keeps : labelText.Keeps (Traced vocabulary) isUnquoted := by
  intro harvest content written next hallowed hchosen h
  obtain ⟨hliteral, htaken⟩ := label_text_takes_as.eq_some.mp hchosen
  obtain ⟨-, rfl⟩ := Prod.mk.inj htaken
  have hunquoted : '"' ∉ content := fun hmem ↦ by simpa using hallowed '"' hmem
  exact h.take (.cell hliteral hunquoted) rfl

theorem button_text_keeps :
    (buttonText vocabulary.sharedButtons).Keeps (Traced vocabulary) isUntagged := by
  intro harvest content written next hallowed hchosen h
  obtain ⟨hworth, htaken⟩ := (button_text_takes_as vocabulary.sharedButtons).eq_some.mp hchosen
  rw [takeButton] at htaken
  split at htaken
  · next initial key hget =>
      obtain ⟨-, rfl⟩ := Prod.mk.inj htaken
      exact h.take (.label (Vocabulary.button_label_mem hget)) rfl
  · obtain ⟨-, rfl⟩ := Prod.mk.inj htaken
    exact h.take (.classed Vocabulary.button_category_mem _ (is_literal_of_worth hworth)
      (untagged_trim hallowed)) rfl

/-- The text of a place in the footer or the region popup has no tag if the place cannot hold one. -/
theorem Harvest.Traced.place {harvest : Harvest} {key content : Text} {allowed : Char → Bool}
    (h : harvest.Traced vocabulary) (hkey : key ∈ footerKeys ++ popupKeys)
    (hallowed : key = "region_discount_text".toList ∨ allowed '<' = false)
    (hcontent : ∀ character ∈ content, allowed character = true)
    (hliteral : isLiteral content = true) :
    (harvest.addShared key (trim content)).2.Traced vocabulary := by
  have huntagged : key = "region_discount_text".toList ∨ '<' ∉ trim content :=
    hallowed.imp_right fun hnot hmem ↦ by
      simpa [hnot] using hcontent '<' (mem_of_mem_trim hmem)
  exact h.take (.place hkey (is_literal_trim hliteral) huntagged) rfl

theorem shared_text_keeps {key : Text} {allowed : Char → Bool}
    (hkey : key ∈ footerKeys ++ popupKeys)
    (hallowed : key = "region_discount_text".toList ∨ allowed '<' = false) :
    (sharedText key).Keeps (Traced vocabulary) allowed := by
  intro harvest content written next hcontent hchosen h
  obtain ⟨hliteral, htaken⟩ := (shared_text_takes_as key).eq_some.mp hchosen
  obtain ⟨-, rfl⟩ := Prod.mk.inj htaken
  exact h.place hkey hallowed hcontent hliteral

theorem rights_text_keeps : rightsText.Keeps (Traced vocabulary) isUntagged := by
  intro harvest content written next hcontent hchosen h
  obtain ⟨hliteral, htaken⟩ := rights_text_takes_as.eq_some.mp hchosen
  obtain ⟨-, rfl⟩ := Prod.mk.inj htaken
  exact h.place (by decide) (.inr rfl) hcontent hliteral

theorem share_literal_keeps {label key : Text} (opening closing : Text)
    (hlabel : (label, key) ∈ vocabulary.labels) :
    Pass.Keeps (Traced vocabulary) (shareLiteral opening label closing key) := by
  intro harvest text h
  simp only [shareLiteral]
  split
  · exact h.take (.label hlabel) rfl
  · exact h

theorem share_link_labels_keeps {labels : Entries Text}
    (hlabels : ∀ entry ∈ labels, entry ∈ vocabulary.labels) :
    Pass.Keeps (Traced vocabulary) (shareLinkLabels labels) := by
  refine in_order_keeps fun pass hmem ↦ ?_
  obtain ⟨entry, hentry, rfl⟩ := List.mem_map.mp hmem
  exact share_literal_keeps _ _ (hlabels _ hentry)

end Choices

section Places

variable {vocabulary : Vocabulary}

theorem head_texts_keeps : Pass.Keeps (Traced vocabulary) headTexts := by
  refine in_order_keeps fun pass hmem ↦ ?_
  rcases List.mem_cons.mp hmem with rfl | hmem
  · exact rewrite_first_keeps framing_title.reads title_text_keeps
  · obtain ⟨entry, hentry, rfl⟩ := List.mem_map.mp hmem
    exact rewrite_first_keeps (reads_meta hentry) (page_text_keeps (List.mem_map_of_mem hentry))

/-- The texts of linked data come from its fields. -/
theorem linked_data_texts_keeps : Pass.Keeps (Traced vocabulary) linkedDataTexts := by
  intro harvest html h
  obtain ⟨blocks, hfields, hkeys⟩ := scan_linked_data_keys harvest.scope html
  have horigin : ∀ entry ∈ (scanLinkedData harvest.scope html).2,
      Origin vocabulary ⟨.own, entry.1, entry.2⟩ := by
    intro entry hmem
    have hkey : entry.1 ∈ linkedDataKeys blocks := hkeys ▸ List.mem_map_of_mem hmem
    obtain ⟨fields, hblock, block, field, hfield, number, heq⟩ := mem_linked_data_keys hkey
    rw [heq]
    exact .linkedData block (hfields fields hblock field hfield) number entry.2
  simp only [linkedDataTexts]
  -- The texts are all found before the first is taken, so the induction is over any such list.
  generalize (scanLinkedData harvest.scope html).2 = taken at horigin
  clear hkeys
  induction taken generalizing harvest with
  | nil => exact h
  | cons entry taken ih =>
      have hentry := horigin entry (List.mem_cons_self ..)
      refine ih _ (h.take hentry rfl) fun other hmem ↦ ?_
      exact horigin other (List.mem_cons_of_mem _ hmem)

theorem navigation_keeps : Pass.Keeps (Traced vocabulary) (navigation vocabulary.navLabels) := by
  intro harvest html h
  have hlabels : Pass.Keeps (Traced vocabulary) (shareLinkLabels vocabulary.navLabels) :=
    share_link_labels_keeps fun entry hentry ↦ by simp [Vocabulary.labels, hentry]
  exact Cuts.rewrite_keeps (fun state : Bool × Harvest ↦ state.2.Traced vocabulary)
    (Cuts.all recognizeNavigation html)
    (fun state slot _ hstate ↦ hlabels state.2 slot.content hstate) h

theorem line_texts_keeps : Pass.Keeps (Traced vocabulary) (lineTexts vocabulary) := by
  refine in_order_keeps fun pass hmem ↦ ?_
  simp only [List.mem_append, List.mem_map, List.mem_cons, List.not_mem_nil, or_false] at hmem
  rcases hmem with ((((⟨element, helement, rfl⟩ | rfl | rfl) | ⟨cssClass, hclass, rfl⟩) |
    ⟨cssClass, hclass, rfl⟩) | rfl) | ⟨cssClass, hclass, rfl⟩
  -- an element may hold anything, also the reference to a text that was taken from inside it
  · exact rewrite_first_keeps (framing_element element).reads (numbered_text_keeps helement)
  · exact rewrite_each_keeps reads_header header_text_keeps
  · exact rewrite_each_keeps reads_label label_text_keeps
  -- spans, divisions, the button and links hold no tag
  · exact rewrite_first_keeps (reads_span cssClass)
      (strict_text_keeps (Vocabulary.span_category_mem hclass))
  · exact rewrite_first_keeps (reads_division cssClass)
      (strict_text_keeps (Vocabulary.div_category_mem hclass))
  · exact rewrite_first_keeps (reads_classed _ _) button_text_keeps
  · exact rewrite_first_keeps (reads_classed _ _)
      (strict_text_keeps (Vocabulary.link_category_mem hclass))

/-- Taking the texts of the lines takes those of one line after the other. -/
theorem lines_texts_keeps (regions : List Region) (number : Nat) {harvest : Harvest}
    (lines : List Text) (h : harvest.Traced vocabulary) :
    (linesTexts vocabulary regions number harvest lines).2.Traced vocabulary := by
  induction lines generalizing harvest number with
  | nil => exact h
  | cons line lines ih =>
      rw [lines_texts_cons]
      refine ih (number + 1) ?_
      simp only [numberedLine]
      split
      · exact h
      · exact line_texts_keeps harvest line h

theorem body_texts_keeps {harvest next : Harvest} {html template : Text}
    (hbody : bodyTexts? vocabulary harvest html = some (template, next))
    (h : harvest.Traced vocabulary) : next.Traced vocabulary := by
  simp only [bodyTexts?, Option.map_eq_some_iff] at hbody
  obtain ⟨regions, -, hbody⟩ := hbody
  obtain ⟨-, rfl⟩ := Prod.mk.inj hbody
  exact lines_texts_keeps regions 0 _ h

theorem footer_passes_keeps (brand : Text) :
    Pass.Keeps (Traced vocabulary) (footerPasses vocabulary brand) := by
  have hlinks : Pass.Keeps (Traced vocabulary) (shareLinkLabels vocabulary.footerLinks) :=
    share_link_labels_keeps fun entry hentry ↦ by simp [Vocabulary.labels, hentry]
  refine in_order_keeps fun pass hmem ↦ ?_
  simp only [List.mem_append, List.mem_map, List.mem_cons, List.not_mem_nil, or_false] at hmem
  rcases hmem with ((rfl | ⟨entry, hentry, rfl⟩) | rfl | rfl) | hmem
  · exact rewrite_first_keeps (reads_plain (by decide) (by decide))
      (shared_text_keeps (by decide) (.inr rfl))
  · exact share_literal_keeps _ _ (by simp [Vocabulary.labels, hentry])
  · exact hlinks
  · exact rewrite_first_keeps (reads_plain (by decide) (by decide))
      (shared_text_keeps (by decide) (.inr rfl))
  · split at hmem
    · exact absurd hmem List.not_mem_nil
    · obtain rfl := List.mem_singleton.mp hmem
      exact rewrite_first_keeps (reads_rights brand) rights_text_keeps

theorem footer_keeps (brand : Text) : Pass.Keeps (Traced vocabulary) (footer vocabulary brand) := by
  refine rewrite_first_keeps framing_footer.reads fun harvest content written next _ hchosen h ↦ ?_
  have hpasses := footer_passes_keeps brand harvest content h
  rwa [Option.some.inj hchosen] at hpasses

theorem region_popup_keeps : Pass.Keeps (Traced vocabulary) (regionPopup vocabulary) := by
  refine in_order_keeps fun pass hmem ↦ ?_
  simp only [List.mem_append, List.mem_map, List.mem_cons, List.not_mem_nil, or_false] at hmem
  rcases hmem with (rfl | rfl | rfl) | ⟨entry, hentry, rfl⟩
  · exact rewrite_first_keeps reads_popup_title (shared_text_keeps (by decide) (.inr rfl))
  · exact rewrite_first_keeps (reads_plain (by decide) (by decide))
      (shared_text_keeps (by decide) (.inr rfl))
  · exact rewrite_first_keeps (framing_between (by decide) (by decide)).reads
      (shared_text_keeps (by decide) (.inl rfl))
  · exact share_literal_keeps _ _ (by simp [Vocabulary.labels, hentry])

end Places

/-- Every text taken along a run has an origin. -/
theorem Run.traced {vocabulary : Vocabulary} {scope brand html : Text}
    (run : Run vocabulary scope brand html) : run.popped.2.Traced vocabulary := by
  have hempty : (Harvest.empty scope).Traced vocabulary := fun taking hmem ↦ by
    simp [Harvest.empty] at hmem
  have hheaded := head_texts_keeps (Harvest.empty scope) html hempty
  rw [run.headed_eq] at hheaded
  have hlinked := linked_data_texts_keeps run.headed.2 (fillHead run.headed.1) hheaded
  rw [run.linked_eq] at hlinked
  have hnavigated := navigation_keeps run.linked.2 run.linked.1 hlinked
  rw [run.navigated_eq] at hnavigated
  have hbody := body_texts_keeps run.body_eq hnavigated
  exact region_popup_keeps _ _ (footer_keeps brand _ _ hbody)

/-- Every text in the dictionaries of an extraction has an origin. -/
theorem extract_origin {page : Page} {vocabulary : Vocabulary} {brand html : Text}
    {extraction : Extraction} (h : extractPage? page vocabulary brand html = some extraction) :
    (∀ entry ∈ extraction.page, Origin vocabulary ⟨.own, entry.1, entry.2⟩) ∧
      ∀ entry ∈ extraction.shared, Origin vocabulary ⟨.shared, entry.1, entry.2⟩ := by
  cases hredirect : page.redirectTo with
  | some target =>
      simp only [extractPage?, hredirect, Option.some.injEq] at h
      simp [← h]
  | none =>
      obtain ⟨run, rfl⟩ := exists_run_of_page hredirect h
      have hrecorded : Recorded run.popped.2 := (recorded_empty page.key).of_gathers run.gathers
      have horigin (keeping : Keeping) : ∀ entry ∈ run.popped.2.dictionary keeping,
          Origin vocabulary ⟨keeping, entry.1, entry.2⟩ := fun entry hmem ↦
        run.traced _ (hrecorded.taken_of_mem hmem)
      exact ⟨horigin .own, horigin .shared⟩

/-!
## Texts that are literal

Most places of a page give literal texts only, and the labels of the standard vocabulary are literal.
A heading or a paragraph may hold the placeholder of a text that was taken from inside it, and a text
of linked data may be blank or hold a placeholder in the spelling of JSON. `extract_literal_iff` says
that nothing else keeps the texts of an extraction from being literal.
-/

/-- A text of the page that is neither from an element nor from linked data is literal. -/
theorem Origin.own_literal {vocabulary : Vocabulary} {key text : Text}
    (h : Origin vocabulary ⟨.own, key, text⟩) :
    (IsElementKey key ∧ Text.withoutBlanks text ≠ []) ∨ IsLinkedDataKey key ∨
      isLiteral text = true := by
  cases h with
  | title hliteral => exact .inr (.inr hliteral)
  | value _ hliteral _ => exact .inr (.inr hliteral)
  | linkedData block hfield number => exact .inr (.inl ⟨block, _, hfield, number, rfl⟩)
  | element helement number hblank => exact .inl ⟨⟨_, helement, number, rfl⟩, hblank⟩
  | classed _ _ hliteral _ => exact .inr (.inr hliteral)

/-- A shared text is literal if the labels of the vocabulary are. -/
theorem Origin.shared_literal {vocabulary : Vocabulary} {key text : Text}
    (hlabels : ∀ entry ∈ vocabulary.labels, isLiteral entry.1 = true)
    (h : Origin vocabulary ⟨.shared, key, text⟩) : isLiteral text = true := by
  cases h with
  | header hliteral _ => exact hliteral
  | cell hliteral _ => exact hliteral
  | label hlabel => exact hlabels _ hlabel
  | place _ hliteral _ => exact hliteral

/-- The labels of the standard vocabulary are literal. -/
theorem standard_labels_literal :
    ∀ entry ∈ Vocabulary.standard.labels, isLiteral entry.1 = true := by
  decide

/-- With the standard vocabulary, the texts of an extraction are literal exactly when no heading or
paragraph among them has a placeholder and those from linked data are literal. -/
theorem extract_literal_iff {page : Page} {brand html : Text} {extraction : Extraction}
    (h : extractPage? page .standard brand html = some extraction) :
    (∀ entry ∈ extraction.page ++ extraction.shared, isLiteral entry.2 = true) ↔
      (∀ entry ∈ extraction.page, IsElementKey entry.1 → Placeholder.occursIn entry.2 = false) ∧
        ∀ entry ∈ extraction.page, IsLinkedDataKey entry.1 → isLiteral entry.2 = true := by
  obtain ⟨hown, hshared⟩ := extract_origin h
  constructor
  · intro hall
    refine ⟨fun entry hmem _ ↦ ?_, fun entry hmem _ ↦ hall entry (List.mem_append_left _ hmem)⟩
    exact (is_literal_iff.mp (hall entry (List.mem_append_left _ hmem))).2
  · rintro ⟨helements, hlinked⟩ entry hmem
    rcases List.mem_append.mp hmem with hpage | hpage
    · rcases (hown entry hpage).own_literal with ⟨hkey, hblank⟩ | hkey | hliteral
      · exact is_literal_iff.mpr ⟨hblank, helements entry hpage hkey⟩
      · exact hlinked entry hpage hkey
      · exact hliteral
    · exact (hshared entry hpage).shared_literal standard_labels_literal

/-- A paragraph around a heading is taken with the reference to the heading. -/
theorem extract_captures_reference :
    let page : Page := ⟨"home".toList, "home.html".toList, "home.html".toList, none⟩
    let html := "<p>Tea: <h2>Green tea</h2> and more</p>".toList
    let extraction : Extraction := ⟨"<p>\x7b\x7bt.home.p\x7d\x7d</p>".toList,
      [("h2".toList, "Green tea".toList),
        ("p".toList, "Tea: <h2>\x7b\x7bt.home.h2\x7d\x7d</h2> and more".toList)], []⟩
    Placeholder.occursIn html = false ∧ extractPage? page .standard [] html = some extraction ∧
      ¬ ∀ entry ∈ extraction.page ++ extraction.shared, isLiteral entry.2 = true := by
  intro page html extraction
  have hrun : extractPage? page .standard [] html = some extraction := by decide +kernel
  refine ⟨by decide, hrun, fun hall ↦ ?_⟩
  obtain ⟨helements, -⟩ := (extract_literal_iff hrun).mp hall
  have hparagraph := helements _ (List.mem_cons_of_mem _ (List.mem_singleton_self _))
    ⟨"p".toList, by decide, 1, rfl⟩
  exact absurd hparagraph (by decide)

end LocalizedSite.Extract
