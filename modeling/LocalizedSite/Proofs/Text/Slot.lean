import LocalizedSite.Text.Slot
import LocalizedSite.Proofs.Text.Occurrence

/-!
# What slots read

A recogniser of slots is framing if it keeps every character it reads and if the content of its slots
lies between a quote, a bracket or a space on the left and a quote or a bracket on the right. No
placeholder has such a character, so a framed content begins and ends outside of placeholders. Most
slots also hold only characters of a class (`Reads`).
-/

namespace LocalizedSite

namespace Slot

/-- The characters that may end what stands before the content of a framed slot. -/
def isFrameEnd (character : Char) : Bool :=
  character == '>' || character == '"' || character == ' '

/-- The characters that may begin what stands after the content of a framed slot. -/
def isFrameStart (character : Char) : Bool :=
  character == '<' || character == '"'

/-- Only the end of a text decides whether it ends in a frame character. -/
theorem ends_append {back : Text} (front : Text) (h : back.getLast?.any isFrameEnd = true) :
    (front ++ back).getLast?.any isFrameEnd = true := by
  cases hlast : back.getLast? with
  | none => simp [hlast] at h
  | some last => simpa [List.getLast?_append, hlast] using h

/-- Only the beginning of a text decides whether it begins with a frame character. -/
theorem begins_append {front : Text} (back : Text) (h : front.head?.any isFrameStart = true) :
    (front ++ back).head?.any isFrameStart = true := by
  cases front with
  | nil => simp at h
  | cons first front => exact h

/-- The content lies between frame characters. -/
structure Framed (slot : Slot) : Prop where
  /-- The opening ends in a frame character. -/
  opening_ends : slot.opening.getLast?.any isFrameEnd = true
  /-- The closing begins with a frame character. -/
  closing_begins : slot.closing.head?.any isFrameStart = true

/-- The recogniser keeps what it reads, and its slots are framed. -/
def Framing (recognize : Recognizer Slot) : Prop :=
  ∀ text slot rest, recognize text = some (slot, rest) → text = slot.text ++ rest ∧ slot.Framed

theorem text_eq (slot : Slot) : slot.text = slot.opening ++ slot.content ++ slot.closing := rfl

/-- The opening of a framed slot is not empty. -/
theorem Framed.opening_ne_nil {slot : Slot} (h : slot.Framed) : slot.opening ≠ [] := by
  intro hnil
  have hends := h.opening_ends
  simp [hnil] at hends

/-- A framing recogniser consumes at least the opening. -/
theorem Framing.consuming {recognize : Recognizer Slot} (h : Framing recognize) :
    Recognizer.Consuming recognize := by
  intro text slot rest hread
  obtain ⟨htext, hframed⟩ := h text slot rest hread
  have hpositive := List.length_pos_iff.mpr hframed.opening_ne_nil
  simp only [htext, text_eq, List.length_append]
  omega

/-- What is found is the slot between the text before it and the text after it. -/
theorem Framing.first_eq_some {recognize : Recognizer Slot} (h : Framing recognize)
    {text before rest : Text} {slot : Slot}
    (hfirst : recognize.first? text = some (before, slot, rest)) :
    text = before ++ slot.text ++ rest ∧ slot.Framed := by
  obtain ⟨occurrence, rfl, hread, -⟩ := Recognizer.first_eq_some hfirst
  obtain ⟨rfl, hframed⟩ := h occurrence slot rest hread
  exact ⟨by simp, hframed⟩

/-- A slot between two literals. -/
theorem between_eq_some {opening closing text rest : Text} {slot : Slot}
    (h : between opening closing text = some (slot, rest)) :
    slot.opening = opening ∧ slot.closing = closing ∧ text = slot.text ++ rest := by
  simp only [between, bind, Option.bind_eq_some_iff] at h
  obtain ⟨following, hopening, ⟨content, behind⟩, hcut, h⟩ := h
  obtain ⟨rfl, rfl⟩ := by simpa using h
  refine ⟨rfl, rfl, ?_⟩
  rw [Text.after_eq_some.mp hopening, Text.cut_eq_some hcut]
  simp [text_eq]

/-- A slot is read where its opening is and a closing follows. -/
theorem between_ne_none (opening closing content rest : Text) :
    between opening closing (opening ++ (content ++ (closing ++ rest))) ≠ none := by
  simp only [between, bind, Text.after_append, Option.bind_some]
  rw [← List.append_assoc content]
  cases hcut : Text.cut? closing (content ++ closing ++ rest) with
  | none => exact absurd hcut Text.cut_from_ne_none
  | some result => simp

/-- A run of a class between two literals. -/
theorem run_eq_some {opening closing text rest : Text} {allowed : Char → Bool} {slot : Slot}
    (h : run opening allowed closing text = some (slot, rest)) :
    slot.opening = opening ∧ slot.closing = closing ∧ text = slot.text ++ rest ∧
      ∀ character ∈ slot.content, allowed character = true := by
  simp only [run, bind, Option.bind_eq_some_iff] at h
  obtain ⟨following, hopening, h⟩ := h
  rcases hspan : following.span allowed with ⟨content, behind⟩
  simp only [hspan] at h
  obtain ⟨last, hclosing, h⟩ := h
  obtain ⟨rfl, rfl⟩ := by simpa using h
  obtain ⟨rfl, hallowed, -⟩ := Text.span_spec hspan
  refine ⟨rfl, rfl, ?_, hallowed⟩
  rw [Text.after_eq_some.mp hopening, Text.after_eq_some.mp hclosing]
  simp [text_eq]

/-- A run is read up to a closing that is not of its class. -/
theorem run_append (opening rest : Text) {allowed : Char → Bool} {content : Text} {first : Char}
    (others : Text) (hcontent : ∀ character ∈ content, allowed character = true)
    (hfirst : allowed first = false) :
    run opening allowed (first :: others) (opening ++ (content ++ (first :: others ++ rest))) =
      some (⟨opening, content, first :: others⟩, rest) := by
  have hspan : (content ++ (first :: others ++ rest)).span allowed =
      (content, first :: others ++ rest) := by
    refine Text.span_append _ hcontent fun character hhead ↦ ?_
    obtain rfl : first = character := by simpa using hhead
    exact hfirst
  simp only [run, bind, Text.after_append, Option.bind_some, hspan]
  rfl

/-- A slot with content is a slot of the recogniser. -/
theorem nonempty_eq_some {recognize : Recognizer Slot} {text rest : Text} {slot : Slot}
    (h : nonempty recognize text = some (slot, rest)) :
    recognize text = some (slot, rest) ∧ slot.content ≠ [] := by
  obtain ⟨hread, hcontent⟩ := Option.filter_eq_some_iff.mp h
  exact ⟨hread, by simpa using hcontent⟩

/-- More text in front of the opening belongs to the slot. -/
@[simp]
theorem extend_opening_text (before : Text) (slot : Slot) :
    (slot.extendOpening before).text = before ++ slot.text := by
  simp [extendOpening, text_eq]

/-- A slot between two literals is framed if they are. -/
theorem framing_between {opening closing : Text}
    (hopening : opening.getLast?.any isFrameEnd = true)
    (hclosing : closing.head?.any isFrameStart = true) : Framing (between opening closing) := by
  intro text slot rest h
  obtain ⟨hstart, hend, htext⟩ := between_eq_some h
  exact ⟨htext, by rwa [hstart], by rwa [hend]⟩

/-- A run between two literals is framed if they are. -/
theorem framing_run {opening closing : Text} {allowed : Char → Bool}
    (hopening : opening.getLast?.any isFrameEnd = true)
    (hclosing : closing.head?.any isFrameStart = true) : Framing (run opening allowed closing) := by
  intro text slot rest h
  obtain ⟨hstart, hend, htext, -⟩ := run_eq_some h
  exact ⟨htext, by rwa [hstart], by rwa [hend]⟩

/-- Fewer slots of a framing recogniser are framed as well. -/
theorem Framing.filter {recognize : Recognizer Slot} (h : Framing recognize)
    (keep : Slot × Text → Bool) : Framing fun text ↦ (recognize text).filter keep := by
  intro text slot rest hread
  exact h text slot rest (Option.filter_eq_some_iff.mp hread).1

theorem Framing.nonempty {recognize : Recognizer Slot} (h : Framing recognize) :
    Framing (Slot.nonempty recognize) :=
  h.filter _

/-- The recogniser is framing, and its slots have only characters of a class as their content. -/
structure Reads (allowed : Char → Bool) (recognize : Recognizer Slot) : Prop where
  framing : Framing recognize
  content : ∀ {text rest : Text} {slot : Slot}, recognize text = some (slot, rest) →
    ∀ character ∈ slot.content, allowed character = true

/-- What a recogniser reads is found out once for its slots and for their content. -/
theorem Reads.intro {allowed : Char → Bool} {recognize : Recognizer Slot}
    (h : ∀ text slot rest, recognize text = some (slot, rest) →
      (text = slot.text ++ rest ∧ slot.Framed) ∧
        ∀ character ∈ slot.content, allowed character = true) : Reads allowed recognize :=
  ⟨fun text slot rest hread ↦ (h text slot rest hread).1,
    fun hread ↦ (h _ _ _ hread).2⟩

/-- Whatever a slot holds, it has characters. -/
theorem Framing.reads {recognize : Recognizer Slot} (h : Framing recognize) :
    Reads (fun _ ↦ true) recognize :=
  ⟨h, fun _ _ _ ↦ rfl⟩

/-- A run between two literals holds only characters of its class. -/
theorem reads_run {opening closing : Text} {allowed : Char → Bool}
    (hopening : opening.getLast?.any isFrameEnd = true)
    (hclosing : closing.head?.any isFrameStart = true) :
    Reads allowed (run opening allowed closing) :=
  ⟨framing_run hopening hclosing, fun hread ↦ (run_eq_some hread).2.2.2⟩

theorem Reads.nonempty {allowed : Char → Bool} {recognize : Recognizer Slot}
    (h : Reads allowed recognize) : Reads allowed (Slot.nonempty recognize) :=
  ⟨h.framing.nonempty, fun hread ↦ h.content (nonempty_eq_some hread).1⟩

/-- What is found first is a slot like every other. -/
theorem Reads.first_eq_some {allowed : Char → Bool} {recognize : Recognizer Slot}
    (h : Reads allowed recognize) {text before rest : Text} {slot : Slot}
    (hfirst : recognize.first? text = some (before, slot, rest)) :
    ∀ character ∈ slot.content, allowed character = true := by
  obtain ⟨occurrence, rfl, hread, -⟩ := Recognizer.first_eq_some hfirst
  exact h.content hread

end Slot

end LocalizedSite
