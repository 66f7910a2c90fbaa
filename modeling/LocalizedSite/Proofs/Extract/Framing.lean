import LocalizedSite.Extract.Page
import LocalizedSite.Proofs.Text.Slot

/-!
# What the recognisers of extraction read

Every recogniser by which a pass of the extraction finds its slots is framing: it keeps what it
reads, and the text to be taken lies between a quote, a bracket or a space and a quote or a bracket.
Most of them read a run of a character class, so that their slots have no tag or no quote inside. The
title, the elements of body text and the discount text of the region popup may hold anything. One lemma
for each recogniser.
-/

namespace LocalizedSite.Extract

open Slot

/-- Whether a character is none that begins a tag. -/
abbrev isUntagged (character : Char) : Bool := character != '<'

/-- Whether a character is none that ends the value of an attribute. -/
abbrev isUnquoted (character : Char) : Bool := character != '"'

/-- A start tag begins with the element's name and ends with its bracket. -/
theorem read_opening_eq_some {element text opening rest : Text}
    (h : readOpening element text = some (opening, rest)) :
    text = opening ++ rest ∧ opening.getLast? = some '>' := by
  simp only [readOpening, bind, Option.bind_eq_some_iff] at h
  obtain ⟨following, hname, h⟩ := h
  rw [Text.after_eq_some] at hname
  split at h
  · obtain ⟨rfl, rfl⟩ := by simpa using h
    exact ⟨by simp [hname], List.getLast?_concat (l := '<' :: element)⟩
  · next character behind _ =>
      split at h
      · simp only [Option.bind_eq_some_iff] at h
        obtain ⟨⟨inside, last⟩, hcut, h⟩ := h
        obtain ⟨rfl, rfl⟩ := by simpa using h
        rw [hname, Text.cut_eq_some hcut]
        refine ⟨by simp, ?_⟩
        simpa using List.getLast?_concat (l := '<' :: (element ++ inside)) (a := '>')
      · exact absurd h (by simp)
  · exact absurd h (by simp)

theorem framing_title : Framing recognizeTitle :=
  framing_between (by decide) (by decide)

/-- The value of an attribute is framed if the text before it ends with its quote. -/
theorem reads_value {opening : Text} (h : opening.getLast?.any isFrameEnd = true) :
    Reads isUnquoted (recognizeValue opening) :=
  reads_run h (by decide)

/-- The values of the metadata that holds texts. -/
theorem reads_meta {entry : Text × Text} (h : entry ∈ metaTexts) :
    Reads isUnquoted (recognizeValue entry.1) := by
  have hopening : ∀ entry ∈ metaTexts, entry.1.getLast?.any isFrameEnd = true := by decide
  exact reads_value (hopening entry h)

theorem framing_element (element : Text) : Framing (recognizeElement element) := by
  intro text slot rest h
  simp only [recognizeElement, bind, Option.bind_eq_some_iff] at h
  obtain ⟨⟨opening, following⟩, hopening, h⟩ := h
  obtain ⟨rfl, hlast⟩ := read_opening_eq_some hopening
  split at h
  · exact absurd h (by simp)
  · next first behind heq =>
      simp only [Option.bind_eq_some_iff] at h
      obtain ⟨⟨content, last⟩, hcut, h⟩ := h
      obtain ⟨rfl, rfl⟩ := by simpa using h
      refine ⟨?_, ?_, ?_⟩
      · rw [show following = first :: behind from heq, Text.cut_eq_some hcut]
        simp [Slot.text_eq]
      · simp [hlast, isFrameEnd]
      · simp [isFrameStart]

/-- A table header has neither a tag nor a brace inside. -/
theorem reads_header :
    Reads (fun character ↦ character != '<' && character != '\x7b') recognizeHeader := by
  refine .intro fun text slot rest h ↦ ?_
  simp only [recognizeHeader, bind, Option.bind_eq_some_iff] at h
  obtain ⟨⟨opening, following⟩, hopening, h⟩ := h
  obtain ⟨rfl, hlast⟩ := read_opening_eq_some hopening
  rcases hspan : following.span fun character ↦ character != '<' && character != '\x7b'
    with ⟨content, behind⟩
  simp only [hspan] at h
  obtain ⟨last, hclosing, h⟩ := h
  obtain ⟨rfl, hallowed, -⟩ := Text.span_spec hspan
  split at h
  · exact absurd h (by simp)
  · obtain ⟨rfl, rfl⟩ := by simpa using h
    refine ⟨⟨?_, ?_, ?_⟩, hallowed⟩
    · rw [Text.after_eq_some.mp hclosing]
      simp [Slot.text_eq]
    · simp [hlast, isFrameEnd]
    · simp [isFrameStart]

theorem reads_label : Reads isUnquoted recognizeLabel :=
  (reads_run (by decide) (by decide)).nonempty

/-- Plain text is framed if the literals around it are. -/
theorem reads_plain {opening closing : Text} (hopening : opening.getLast?.any isFrameEnd = true)
    (hclosing : closing.head?.any isFrameStart = true) :
    Reads isUntagged (plainContent opening closing) :=
  (reads_run hopening hclosing).nonempty

/-- Plain text without an opening of its own is framed once its opening is added. -/
theorem plain_content_extend {closing text rest : Text} {slot : Slot} (before : Text)
    (hbefore : before.getLast?.any isFrameEnd = true)
    (hclosing : closing.head?.any isFrameStart = true)
    (h : plainContent [] closing text = some (slot, rest)) :
    (before ++ text = (slot.extendOpening before).text ++ rest ∧
      (slot.extendOpening before).Framed) ∧
        ∀ character ∈ slot.content, isUntagged character = true := by
  obtain ⟨hopening, hend, rfl, hallowed⟩ := run_eq_some (nonempty_eq_some h).1
  refine ⟨⟨by simp, ?_, ?_⟩, hallowed⟩
  · simpa [extendOpening, hopening] using hbefore
  · simpa [extendOpening, hend] using hclosing

theorem reads_span (cssClass : Text) : Reads isUntagged (recognizeSpan cssClass) := by
  refine .intro fun text slot rest h ↦ ?_
  simp only [recognizeSpan, bind, Option.bind_eq_some_iff] at h
  obtain ⟨following, hopening, h⟩ := h
  rcases hspan : following.span (· != '"') with ⟨others, behind⟩
  simp only [hspan] at h
  obtain ⟨afterQuote, hquote, ⟨inner, last⟩, hplain, h⟩ := h
  obtain ⟨rfl, rfl⟩ := by simpa using h
  obtain ⟨rfl, -, -⟩ := Text.span_spec hspan
  obtain ⟨⟨htext, hframed⟩, hallowed⟩ := plain_content_extend
    ("<span class=\"".toList ++ cssClass ++ others ++ "\">".toList)
    (ends_append _ (by decide)) (by decide) hplain
  refine ⟨⟨?_, by simpa using hframed⟩, hallowed⟩
  rw [Text.after_eq_some.mp hopening, Text.after_eq_some.mp hquote]
  simpa using htext

theorem reads_division (cssClass : Text) : Reads isUntagged (recognizeDivision cssClass) :=
  reads_plain (ends_append _ (by decide)) (by decide)

/-- What follows the quote of a class attribute belongs to one text with what stands before it. -/
theorem class_places_spec {passed text before following : Text} {found : List (Text × Text)}
    (h : (before, following) ∈ classPlaces passed found text) :
    (before, following) ∈ found ∨
      passed.reverse ++ text = before ++ "class=\"".toList ++ following := by
  induction text generalizing passed found with
  | nil => exact .inl h
  | cons character text ih =>
      simp only [classPlaces] at h
      split at h
      · exact .inl h
      · rcases ih h with hfound | htext
        · split at hfound
          · next behind hafter =>
              rcases List.mem_cons.mp hfound with heq | hfound
              · obtain ⟨rfl, rfl⟩ := Prod.mk.inj heq
                exact .inr (by rw [Text.after_eq_some.mp hafter]; simp)
              · exact .inl hfound
          · exact .inl hfound
        · exact .inr (by simpa using htext)

/-- The content of a classed element is framed, since the tag before it ends with a bracket. -/
theorem classed_content_spec {mark text rest : Text} {closings : List Text} {slot : Slot}
    (before : Text)
    (hclosings : ∀ closing ∈ closings, closing.head?.any isFrameStart = true)
    (h : classedContent mark closings text = some (slot, rest)) :
    (before ++ text = (slot.extendOpening before).text ++ rest ∧
      (slot.extendOpening before).Framed) ∧
        ∀ character ∈ slot.content, isUntagged character = true := by
  simp only [classedContent, bind] at h
  rcases hspan : text.span (· != '"') with ⟨value, behind⟩
  simp only [hspan, Option.bind_eq_some_iff] at h
  obtain ⟨afterQuote, hquote, h⟩ := h
  obtain ⟨rfl, -, -⟩ := Text.span_spec hspan
  split at h
  · exact absurd h (by simp)
  · simp only [Option.bind_eq_some_iff] at h
    obtain ⟨⟨inside, content⟩, hcut, ⟨inner, last⟩, hfound, h⟩ := h
    obtain ⟨rfl, rfl⟩ := by simpa using h
    obtain ⟨closing, hmem, hplain⟩ := List.exists_of_findSome?_eq_some hfound
    obtain ⟨⟨htext, hframed⟩, hallowed⟩ :=
      plain_content_extend (before ++ (value ++ '"' :: inside ++ ['>']))
        (ends_append before (ends_append (value ++ '"' :: inside) (by decide)))
        (hclosings closing hmem) hplain
    rw [Text.after_eq_some.mp hquote, Text.cut_eq_some hcut]
    refine ⟨⟨by simpa using htext, ?_⟩, hallowed⟩
    simpa [extendOpening] using hframed

theorem reads_classed (elements : List Text) (mark : Text) :
    Reads isUntagged (recognizeClassed elements mark) := by
  refine .intro fun text slot rest h ↦ ?_
  obtain ⟨element, -, h⟩ := List.exists_of_findSome?_eq_some h
  simp only [bind, Option.bind_eq_some_iff] at h
  obtain ⟨following, hopening, h⟩ := h
  split at h
  · exact absurd h (by simp)
  · next blank behind =>
      split at h
      · exact absurd h (by simp)
      · obtain ⟨⟨before, inside⟩, hplace, h⟩ := List.exists_of_findSome?_eq_some h
        simp only [Option.bind_eq_some_iff] at h
        obtain ⟨⟨inner, last⟩, hcontent, h⟩ := h
        obtain ⟨rfl, rfl⟩ := by simpa using h
        have hbehind : behind = before ++ "class=\"".toList ++ inside := by
          simpa using class_places_spec hplace
        obtain ⟨⟨htext, hframed⟩, hallowed⟩ := classed_content_spec
          ('<' :: element ++ blank :: before ++ "class=\"".toList)
          (by simp [isFrameStart]) hcontent
        refine ⟨⟨?_, by simpa using hframed⟩, hallowed⟩
        rw [Text.after_eq_some.mp hopening, hbehind]
        simpa using htext

theorem framing_linked_data : Framing recognizeLinkedData :=
  framing_between (by decide) (by decide)

theorem framing_navigation : Framing recognizeNavigation :=
  framing_between (by decide) (by decide)

theorem framing_footer : Framing recognizeFooter :=
  framing_between (by decide) (by decide)

theorem reads_rights (brand : Text) : Reads isUntagged (recognizeRights brand) := by
  refine .intro fun text slot rest h ↦ ?_
  obtain ⟨sign, -, h⟩ := List.exists_of_findSome?_eq_some h
  simp only [bind, Option.bind_eq_some_iff] at h
  obtain ⟨following, hsign, h⟩ := h
  rcases hspan : following.span Text.isDecimalDigit with ⟨year, behind⟩
  simp only [hspan] at h
  obtain ⟨rfl, -, -⟩ := Text.span_spec hspan
  split at h
  · exact absurd h (by simp)
  · simp only [Option.bind_eq_some_iff] at h
    obtain ⟨afterName, hname, ⟨inner, last⟩, hplain, h⟩ := h
    obtain ⟨rfl, rfl⟩ := by simpa using h
    obtain ⟨⟨htext, hframed⟩, hallowed⟩ := plain_content_extend
      (sign ++ ' ' :: year ++ (' ' :: brand ++ ". ".toList))
      (ends_append _ (ends_append (' ' :: brand) (by decide))) (by decide) hplain
    refine ⟨⟨?_, by simpa using hframed⟩, hallowed⟩
    rw [Text.after_eq_some.mp hsign, Text.after_eq_some.mp hname]
    simpa using htext

theorem reads_button_heading : Reads isUntagged recognizeButtonHeading := by
  refine .intro fun text slot rest h ↦ ?_
  simp only [recognizeButtonHeading, bind, Option.bind_eq_some_iff] at h
  obtain ⟨following, hopening, ⟨inside, afterTag⟩, hcut, h⟩ := h
  rcases hlabel : afterTag.span (· != '<') with ⟨label, afterLabel⟩
  simp only [hlabel] at h
  obtain ⟨afterButton, hbutton, h⟩ := h
  rcases hblanks : afterButton.span Text.isBlank with ⟨blanks, afterBlanks⟩
  simp only [hblanks] at h
  obtain ⟨rfl, -, -⟩ := Text.span_spec hlabel
  obtain ⟨rfl, -, -⟩ := Text.span_spec hblanks
  split at h
  · exact absurd h (by simp)
  · simp only [Option.bind_eq_some_iff] at h
    obtain ⟨⟨inner, last⟩, hplain, h⟩ := h
    obtain ⟨rfl, rfl⟩ := by simpa using h
    have hreads : Reads isUntagged (plainContent "<h3>".toList "</h3>".toList) :=
      reads_plain (by decide) (by decide)
    obtain ⟨htext, hends, hbegins⟩ := hreads.framing _ _ _ hplain
    have hallowed := hreads.content hplain
    refine ⟨⟨?_, ends_append _ hends, hbegins⟩, hallowed⟩
    rw [Text.after_eq_some.mp hopening, Text.cut_eq_some hcut, Text.after_eq_some.mp hbutton,
      htext]
    simp

theorem reads_popup_title : Reads isUntagged recognizePopupTitle := by
  refine .intro fun text slot rest h ↦ ?_
  simp only [recognizePopupTitle, bind, Option.bind_eq_some_iff] at h
  obtain ⟨following, hopening, ⟨before, inner, last⟩, hfirst, h⟩ := h
  obtain ⟨rfl, rfl⟩ := by simpa using h
  obtain ⟨htext, hframed⟩ := reads_button_heading.framing.first_eq_some hfirst
  have hallowed := reads_button_heading.first_eq_some hfirst
  refine ⟨⟨?_, ends_append _ hframed.opening_ends, hframed.closing_begins⟩, hallowed⟩
  rw [Text.after_eq_some.mp hopening, htext]
  simp

theorem framing_link : Framing recognizeLink :=
  (framing_run (by decide) (by decide)).filter _

end LocalizedSite.Extract
