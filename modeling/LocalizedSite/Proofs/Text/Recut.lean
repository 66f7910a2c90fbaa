import LocalizedSite.Proofs.Seam
import LocalizedSite.Proofs.Text.Slot
import Mathlib.Data.List.Forall2

/-!
# Cutting a text again

Let a text be cut at its slots between two literals that do not overlap themselves, and let the slots
get other contents. If no content has the closing literal, the new text is cut into the same pieces with
the new contents (`recut_eq`). Otherwise the first content that has it is cut short
(`closing_free_of_forall`). What is left of it begins no slot of its own if it has no opening, so that all
slots of the new text have one of the contents or the beginning of one (`mem_recut`).
-/

namespace LocalizedSite

namespace Text

/-- The first character of a literal stands nowhere else in it. -/
def IsLone (mark : Text) : Prop :=
  ∃ first others, mark = first :: others ∧ first ∉ others

/-- Two places at which a literal stands are the same, or one is behind the other. -/
theorem IsLone.split {mark : Text} (h : IsLone mark) {front back other rest : Text}
    (hsplit : front ++ (mark ++ back) = other ++ (mark ++ rest)) :
    front = other ∨ (∃ between, other = front ++ (mark ++ between)) ∨
      ∃ between, front = other ++ (mark ++ between) := by
  obtain ⟨first, others, rfl, hfirst⟩ := h
  -- The shorter front leaves a piece that begins with the literal, or lies within it.
  have hbehind {piece back rest : Text}
      (hpiece : first :: others ++ back = piece ++ (first :: others ++ rest)) :
      piece = [] ∨ ∃ between, piece = first :: others ++ between := by
    rcases List.append_eq_append_iff.mp hpiece with ⟨between, hbetween, -⟩ | ⟨inside, hmark, hrest⟩
    · exact .inr ⟨between, hbetween⟩
    · cases piece with
      | nil => exact .inl rfl
      | cons character piece =>
          cases inside with
          | nil => exact .inr ⟨[], by rw [hmark]; simp⟩
          | cons next inside =>
              refine absurd ?_ hfirst
              rw [(List.cons.inj hmark).2, (List.cons.inj hrest).1]
              exact List.mem_append_right _ (List.mem_cons_self ..)
  rcases List.append_eq_append_iff.mp hsplit with ⟨piece, rfl, hpiece⟩ | ⟨piece, rfl, hpiece⟩
  · rcases hbehind hpiece with rfl | ⟨between, rfl⟩
    · exact .inl (List.append_nil _).symm
    · exact .inr (.inl ⟨between, rfl⟩)
  · rcases hbehind hpiece with rfl | ⟨between, rfl⟩
    · exact .inl (List.append_nil _)
    · exact .inr (.inr ⟨between, rfl⟩)

/-- A literal does not go across the seam of two texts if the second begins like the literal. -/
theorem IsLone.infix_append {mark front back : Text} (h : IsLone mark) (hhead : mark.head? = back.head?) :
    mark <:+: front ++ back ↔ mark <:+: front ∨ mark <:+: back := by
  constructor
  · rintro ⟨earlier, later, hsplit⟩
    rcases List.append_eq_append_iff.mp hsplit with ⟨behind, hfront, -⟩ | ⟨across, hacross, hback⟩
    · exact .inl ⟨earlier, behind, hfront.symm⟩
    rcases List.append_eq_append_iff.mp hacross with ⟨inside, hfront, hmark⟩ | ⟨inside, -, rfl⟩
    · cases across with
      | nil =>
          rw [List.append_nil] at hmark
          exact .inl ⟨earlier, [], by rw [hfront, hmark, List.append_nil]⟩
      | cons character across =>
          cases inside with
          | nil => exact .inr ⟨[], later, by rw [hback, hmark]; rfl⟩
          | cons first inside =>
              -- The literal would have its first character again at the seam.
              obtain ⟨_, others, rfl, hfirst⟩ := h
              obtain ⟨rfl, rfl⟩ := List.cons.inj hmark
              rw [hback] at hhead
              obtain rfl : _ = character := by simpa using hhead
              exact absurd (List.mem_append_right _ (List.mem_cons_self ..)) hfirst
    · exact .inr ⟨inside, later, hback.symm⟩
  · rintro (hpiece | hpiece)
    · exact hpiece.trans (List.prefix_append ..).isInfix
    · exact hpiece.trans (List.suffix_append ..).isInfix

/-- What stands in front of the first place of a literal does not have the literal. -/
theorem IsLone.not_infix_of_cut {mark text before rest : Text} (h : IsLone mark)
    (hcut : cut? mark text = some (before, rest)) : ¬ mark <:+: before := by
  obtain ⟨first, others, rfl, -⟩ := h
  rintro ⟨earlier, later, rfl⟩
  have hsplit : text = earlier ++ first :: others ++ (later ++ (first :: others ++ rest)) := by
    rw [cut_eq_some hcut]
    simp
  have hfirst := cut_first hcut hsplit
  simp only [List.length_append, List.length_cons] at hfirst
  omega

/-- A text is cut at a literal behind it if it does not have the literal, and within it otherwise. -/
theorem IsLone.cut {mark : Text} (h : IsLone mark) (content rest : Text) :
    (¬ mark <:+: content ∧ cut? mark (content ++ (mark ++ rest)) = some (content, rest)) ∨
      ∃ front back behind, content = front ++ mark ++ back ∧
        cut? mark (content ++ (mark ++ rest)) = some (front, behind) := by
  cases hcut : cut? mark (content ++ (mark ++ rest)) with
  | none => exact absurd ⟨content, rest, by simp⟩ (cut_eq_none.mp hcut)
  | some result =>
      obtain ⟨front, behind⟩ := result
      have hwhole := cut_eq_some hcut
      rw [List.append_assoc] at hwhole
      rcases h.split hwhole with rfl | ⟨between, rfl⟩ | ⟨between, hcontent⟩
      · refine .inl ⟨h.not_infix_of_cut hcut, ?_⟩
        rw [List.append_cancel_left (List.append_cancel_left hwhole)]
      · refine absurd ⟨content, between, ?_⟩ (h.not_infix_of_cut hcut)
        rw [List.append_assoc]
      · exact .inr ⟨front, between, behind, by rw [hcontent, List.append_assoc], rfl⟩

end Text

namespace Slot

variable {opening closing : Text}

/-- What is read between two literals is not empty. -/
theorem consuming_between (hopening : Text.IsLone opening) :
    Recognizer.Consuming (between opening closing) := by
  intro text slot rest h
  obtain ⟨hstart, -, rfl⟩ := between_eq_some h
  obtain ⟨first, others, rfl, -⟩ := hopening
  simp only [Slot.text_eq, hstart, List.length_append, List.length_cons]
  omega

/-- The content of a slot between two literals does not have the closing. -/
theorem content_free (hclosing : Text.IsLone closing) {text rest : Text} {slot : Slot}
    (h : between opening closing text = some (slot, rest)) : ¬ closing <:+: slot.content := by
  simp only [between, bind, Option.bind_eq_some_iff] at h
  obtain ⟨following, -, ⟨content, behind⟩, hcut, h⟩ := h
  obtain ⟨rfl, rfl⟩ := by simpa using h
  exact hclosing.not_infix_of_cut hcut

/-- A content without the closing is read whole. -/
theorem between_append (hclosing : Text.IsLone closing) (opening rest : Text) {content : Text}
    (h : ¬ closing <:+: content) :
    between opening closing (opening ++ (content ++ (closing ++ rest))) =
      some (⟨opening, content, closing⟩, rest) := by
  rcases hclosing.cut content rest with ⟨-, hcut⟩ | ⟨front, back, behind, rfl, -⟩
  · simp only [between, bind, Text.after_append, Option.bind_some, hcut]
    rfl
  · exact absurd ⟨front, back, rfl⟩ h

/-- A slot between two literals is read from its text if its content does not have the closing. -/
theorem reads_written_between (hopening : Text.IsLone opening) (hclosing : Text.IsLone closing) :
    (between opening closing).ReadsWritten Slot.text fun slot ↦
      slot.opening = opening ∧ slot.closing = closing ∧ ¬ closing <:+: slot.content where
  consuming := consuming_between hopening
  eq_some {text rest slot} := by
    constructor
    · intro h
      obtain ⟨hopen, hclose, htext⟩ := between_eq_some h
      exact ⟨⟨hopen, hclose, content_free hclosing h⟩, htext⟩
    · rintro ⟨⟨rfl, rfl, hfree⟩, rfl⟩
      rw [Slot.text_eq, List.append_assoc, List.append_assoc]
      exact between_append hclosing slot.opening rest hfree

/-- A slot is found at the first opening, with its content up to the first closing behind it. -/
theorem first_between (hopening : Text.IsLone opening) {before following content behind : Text}
    (hbefore : ¬ opening <:+: before) (hcut : Text.cut? closing following = some (content, behind)) :
    (between opening closing).first? (before ++ (opening ++ following)) =
      some (before, ⟨opening, content, closing⟩, behind) := by
  have hread : between opening closing (opening ++ following) =
      some (⟨opening, content, closing⟩, behind) := by
    simp [between, hcut]
  induction before with
  | nil =>
      obtain ⟨first, others, rfl, -⟩ := hopening
      exact Recognizer.first_of_eq_some hread
  | cons character before ih =>
      have hlater : ¬ opening <:+: before :=
        fun hstands ↦ hbefore (List.infix_cons_iff.mpr (.inr hstands))
      have hnone : between opening closing (character :: (before ++ (opening ++ following))) = none := by
        cases hafter : Text.after? opening (character :: (before ++ (opening ++ following))) with
        | none => simp [between, hafter]
        | some rest =>
            have hsplit : [] ++ (opening ++ rest) = character :: before ++ (opening ++ following) :=
              (Text.after_eq_some.mp hafter).symm
            rcases hopening.split hsplit with hnil | ⟨inside, hinside⟩ | ⟨inside, hinside⟩
            · exact absurd hnil (by simp)
            · exact absurd ⟨[], inside, by rw [hinside]; simp⟩ hbefore
            · exact absurd hinside (by simp)
      rw [List.cons_append, Recognizer.first_of_eq_none hnone, ih hlater]
      rfl

end Slot

namespace Cuts

open Slot

/-- The pieces of a text that is cut at its slots between two literals: nothing is found in the tail, and
no opening stands in front of a slot. -/
structure IsBetween (opening closing : Text) (cuts : Cuts Slot) : Prop where
  before_free : ∀ piece ∈ cuts.found, ¬ opening <:+: piece.1
  opening_eq : ∀ piece ∈ cuts.found, piece.2.opening = opening
  closing_eq : ∀ piece ∈ cuts.found, piece.2.closing = closing
  tail_none : (between opening closing).first? cuts.tail = none

/-- What is found when the text of a cut text is cut again. -/
def recut (opening closing : Text) (cuts : Cuts Slot) : Cuts Slot :=
  all (between opening closing) (cuts.text Slot.text)

variable {opening closing : Text} {cuts : Cuts Slot}

/-- The text with the slots of a cut text, from the first one on. -/
theorem text_slot_cons {before : Text} {slot : Slot} {found : List (Text × Slot)} {tail : Text} :
    text Slot.text ⟨(before, slot) :: found, tail⟩ =
      before ++ (slot.opening ++ (slot.content ++ (slot.closing ++ text Slot.text ⟨found, tail⟩))) := by
  simp [text, Slot.text_eq]

/-- The pieces behind the first one. -/
theorem IsBetween.tail {piece : Text × Slot} {found : List (Text × Slot)} {last : Text}
    (h : IsBetween opening closing ⟨piece :: found, last⟩) : IsBetween opening closing ⟨found, last⟩ :=
  ⟨fun other hmem ↦ h.before_free other (List.mem_cons_of_mem _ hmem),
    fun other hmem ↦ h.opening_eq other (List.mem_cons_of_mem _ hmem),
    fun other hmem ↦ h.closing_eq other (List.mem_cons_of_mem _ hmem), h.tail_none⟩

/-- Slots between the same literals may stand in place of the slots. -/
theorem IsBetween.map (h : IsBetween opening closing cuts) (change : Slot → Slot)
    (hopening : ∀ slot, (change slot).opening = opening)
    (hclosing : ∀ slot, (change slot).closing = closing) :
    IsBetween opening closing (cuts.map change) := by
  refine ⟨fun piece hmem ↦ ?_, fun piece hmem ↦ ?_, fun piece hmem ↦ ?_, h.tail_none⟩
  all_goals obtain ⟨old, hold, rfl⟩ := List.mem_map.mp hmem
  · exact h.before_free old hold
  · exact hopening old.2
  · exact hclosing old.2

/-- A text is cut at its slots, and no content has the closing. -/
theorem is_between_all (hopening : Text.IsLone opening) (hclosing : Text.IsLone closing)
    (html : Text) : IsBetween opening closing (all (between opening closing) html) ∧
      ∀ piece ∈ (all (between opening closing) html).found, ¬ closing <:+: piece.2.content := by
  refine all_induction (consuming_between hopening)
    (motive := fun _ cuts ↦ IsBetween opening closing cuts ∧
      ∀ piece ∈ cuts.found, ¬ closing <:+: piece.2.content) ?_ ?_ html
  · intro text hnone
    exact ⟨⟨by simp, by simp, by simp, hnone⟩, by simp⟩
  · intro text before slot rest hfirst ih
    obtain ⟨occurrence, rfl, hread, hearlier⟩ := Recognizer.first_eq_some hfirst
    have hcontent := content_free hclosing hread
    obtain ⟨hopened, hclosed, rfl⟩ := between_eq_some hread
    have hbefore : ¬ opening <:+: before := by
      rintro ⟨front, back, rfl⟩
      refine between_ne_none opening closing (back ++ opening ++ slot.content) rest
        (hearlier front _ ?_ ?_)
      · simp [Slot.text_eq, hopened, hclosed]
      · obtain ⟨first, others, rfl, -⟩ := hopening
        simp only [List.length_append, List.length_cons]
        omega
    obtain ⟨hbetween, hfree⟩ := ih
    refine ⟨⟨?_, ?_, ?_, hbetween.tail_none⟩, ?_⟩
    · exact List.forall_mem_cons.mpr ⟨hbefore, hbetween.before_free⟩
    · exact List.forall_mem_cons.mpr ⟨hopened, hbetween.opening_eq⟩
    · exact List.forall_mem_cons.mpr ⟨hclosed, hbetween.closing_eq⟩
    · exact List.forall_mem_cons.mpr ⟨hcontent, hfree⟩

/-- The first slot is found with its content, or with the beginning of a content that has the closing. -/
theorem recut_cons (hopening : Text.IsLone opening) (hclosing : Text.IsLone closing)
    {before : Text} {slot : Slot} {found : List (Text × Slot)} {last : Text}
    (h : IsBetween opening closing ⟨(before, slot) :: found, last⟩) :
    (¬ closing <:+: slot.content ∧ recut opening closing ⟨(before, slot) :: found, last⟩ =
        ⟨(before, slot) :: (recut opening closing ⟨found, last⟩).found,
          (recut opening closing ⟨found, last⟩).tail⟩) ∨
      ∃ front back, slot.content = front ++ closing ++ back ∧
        (recut opening closing ⟨(before, slot) :: found, last⟩).found =
          (before, ⟨opening, front, closing⟩) ::
            (all (between opening closing)
              (back ++ (closing ++ text Slot.text ⟨found, last⟩))).found := by
  obtain ⟨opened, content, closed⟩ := slot
  obtain rfl : opened = opening := h.opening_eq _ (List.mem_cons_self ..)
  obtain rfl : closed = closing := h.closing_eq _ (List.mem_cons_self ..)
  have hbefore : ¬ opened <:+: before := h.before_free _ (List.mem_cons_self ..)
  have hcons : recut opened closed ⟨(before, ⟨opened, content, closed⟩) :: found, last⟩ =
      all (between opened closed)
        (before ++ (opened ++ (content ++ (closed ++ text Slot.text ⟨found, last⟩)))) := by
    rw [recut, text_slot_cons]
  rw [hcons]
  rcases hclosing.cut content (text Slot.text ⟨found, last⟩) with
    ⟨hfree, hcut⟩ | ⟨front, back, behind, hcontent, hcut⟩
  · exact .inl ⟨hfree, all_of_first_some (consuming_between hopening)
      (first_between hopening hbefore hcut)⟩
  · refine .inr ⟨front, back, hcontent, ?_⟩
    have hwhole := Text.cut_eq_some hcut
    rw [hcontent, List.append_assoc (front ++ closed)] at hwhole
    rw [all_of_first_some (consuming_between hopening) (first_between hopening hbefore hcut),
      List.append_cancel_left hwhole]

/-- Contents without the closing stay in their places. -/
theorem recut_eq (hopening : Text.IsLone opening) (hclosing : Text.IsLone closing)
    (h : IsBetween opening closing cuts)
    (hfree : ∀ piece ∈ cuts.found, ¬ closing <:+: piece.2.content) :
    recut opening closing cuts = cuts := by
  obtain ⟨found, last⟩ := cuts
  induction found with
  | nil => exact all_of_first_none h.tail_none
  | cons piece found ih =>
      obtain ⟨before, slot⟩ := piece
      obtain ⟨hslot, hlater⟩ := List.forall_mem_cons.mp hfree
      rcases recut_cons hopening hclosing h with ⟨-, hall⟩ | ⟨front, back, hcontent, -⟩
      · rw [hall, ih h.tail hlater]
      · exact absurd ⟨front, back, hcontent.symm⟩ hslot

/-- A content with the closing is cut short where it is found. -/
theorem closing_free_of_forall (hopening : Text.IsLone opening) (hclosing : Text.IsLone closing)
    (h : IsBetween opening closing cuts)
    (hcontent : List.Forall₂ (fun piece other ↦ ∀ front back,
        piece.2.content = front ++ closing ++ back → other.2.content ≠ front)
      cuts.found (recut opening closing cuts).found) :
    ∀ piece ∈ cuts.found, ¬ closing <:+: piece.2.content := by
  obtain ⟨found, last⟩ := cuts
  induction found with
  | nil => simp
  | cons piece found ih =>
      obtain ⟨before, slot⟩ := piece
      rcases recut_cons hopening hclosing h with ⟨hslot, hall⟩ | ⟨front, back, hfront, hall⟩
      · rw [hall] at hcontent
        exact List.forall_mem_cons.mpr ⟨hslot, ih h.tail (List.forall₂_cons.mp hcontent).2⟩
      · rw [hall] at hcontent
        exact absurd rfl ((List.forall₂_cons.mp hcontent).1 front back hfront)

section Short

/-- Two literals of which neither begins within the other: they begin and end with the same characters, which
stand nowhere else in the opening. -/
structure AreApart (opening closing : Text) : Prop where
  opening_lone : Text.IsLone opening
  closing_lone : Text.IsLone closing
  ending_lone : Text.IsLone opening.reverse
  head_eq : opening.head? = closing.head?
  last_eq : opening.getLast? = closing.getLast?
  not_within : ¬ opening <:+: closing

/-- Behind a closing no slot goes on that began before it, unless its opening stands there whole. -/
theorem AreApart.not_straddles (h : AreApart opening closing) {lead : Text}
    (hlead : ¬ opening <:+: lead ++ closing) (back : Text) :
    ¬ Straddles Slot.text (fun slot ↦ slot.opening = opening ∧ slot.closing = closing ∧
      ¬ closing <:+: slot.content) (lead ++ closing) back := by
  rintro ⟨passed, beginning, ending, rest, slot, hfront, hne, -, -, ⟨rfl, -, -⟩, htext⟩
  have hwhole : ¬ slot.opening <+: beginning := by
    rintro ⟨content, rfl⟩
    exact hlead ⟨passed, content, by rw [hfront, List.append_assoc]⟩
  rw [Slot.text_eq, List.append_assoc] at htext
  rcases List.append_eq_append_iff.mp htext with ⟨content, hbeginning, -⟩ | ⟨others, hopening, -⟩
  · exact hwhole ⟨content, hbeginning.symm⟩
  -- The slot would begin with a part of its opening that has the last character too early.
  obtain ⟨last, body, hlast, hlone⟩ := h.ending_lone
  have hsplit : slot.opening = body.reverse ++ [last] := by
    rw [← List.reverse_reverse slot.opening, hlast, List.reverse_cons]
  have hend : beginning.getLast? = some last := by
    have hclosing : closing.getLast? = some last := by rw [← h.last_eq, hsplit, List.getLast?_concat]
    have hnil : closing ≠ [] := by
      rintro rfl
      exact absurd hclosing (by simp)
    rw [← List.getLast?_append_of_ne_nil passed hne, ← hfront, List.getLast?_append_of_ne_nil lead hnil,
      hclosing]
  rcases List.eq_nil_or_concat others with rfl | ⟨inner, final, rfl⟩
  · exact hwhole ⟨[], by rw [hopening, List.append_nil, List.append_nil]⟩
  · rw [hsplit, List.concat_eq_append, ← List.append_assoc] at hopening
    obtain ⟨hbody, -⟩ := List.append_inj' hopening rfl
    refine hlone (List.mem_reverse.mp ?_)
    rw [hbody]
    exact List.mem_append_left _ (List.mem_of_getLast? hend)

/-- Where a content is cut short, no slot begins in what is left of it. -/
theorem AreApart.occurrences_behind (h : AreApart opening closing) {back : Text}
    (hback : ¬ opening <:+: back) (rest : Text) :
    (all (between opening closing) (back ++ (closing ++ rest))).occurrences =
      (all (between opening closing) rest).occurrences := by
  have hlead : ¬ opening <:+: back ++ closing := by
    rw [h.opening_lone.infix_append h.head_eq]
    exact not_or.mpr ⟨hback, h.not_within⟩
  have hplain : all (between opening closing) (back ++ closing) = plain (back ++ closing) := by
    refine all_of_first_none (Recognizer.first_eq_none.mpr fun front character behind hsplit ↦ ?_)
    cases hread : between opening closing (character :: behind) with
    | none => rfl
    | some result =>
        obtain ⟨hopen, -, htext⟩ := between_eq_some hread
        refine absurd ⟨front, result.1.content ++ (result.1.closing ++ result.2), ?_⟩ hlead
        rw [hsplit, htext, Slot.text_eq, hopen]
        simp
  rw [← List.append_assoc, all_append (reads_written_between h.opening_lone h.closing_lone)
    (h.not_straddles hlead rest), hplain, occurrences_append, occurrences_plain, List.nil_append]

/-- A slot that was found again: it has the content that was put, or its beginning up to a closing. -/
def IsShortened (closing : Text) (slot other : Slot) : Prop :=
  other.content = slot.content ∨ ∃ back, slot.content = other.content ++ closing ++ back

/-- When the text is cut again, each slot that is found has one of the contents or the beginning of one, if no
content with the closing has an opening. -/
theorem mem_recut (h : AreApart opening closing) (hbetween : IsBetween opening closing cuts)
    (hfree : ∀ slot ∈ cuts.occurrences, closing <:+: slot.content → ¬ opening <:+: slot.content) :
    ∀ other ∈ (recut opening closing cuts).occurrences,
      ∃ slot ∈ cuts.occurrences, IsShortened closing slot other := by
  obtain ⟨found, last⟩ := cuts
  induction found with
  | nil =>
      have hnone : recut opening closing ⟨[], last⟩ = ⟨[], last⟩ := all_of_first_none hbetween.tail_none
      rw [hnone]
      exact fun other hmem ↦ absurd hmem List.not_mem_nil
  | cons piece found ih =>
      obtain ⟨before, slot⟩ := piece
      obtain ⟨hslot, hothers⟩ := List.forall_mem_cons.mp hfree
      have hrest : ∀ other ∈ (recut opening closing ⟨found, last⟩).occurrences,
          ∃ old ∈ slot :: found.map Prod.snd, IsShortened closing old other := fun other hmem ↦ by
        obtain ⟨old, hold, hshortened⟩ := ih hbetween.tail hothers other hmem
        exact ⟨old, List.mem_cons_of_mem _ hold, hshortened⟩
      rcases recut_cons h.opening_lone h.closing_lone hbetween with
        ⟨-, hrecut⟩ | ⟨front, back, hcontent, hrecut⟩
      · rw [hrecut]
        exact List.forall_mem_cons.mpr ⟨⟨slot, List.mem_cons_self .., .inl rfl⟩, hrest⟩
      · have hback : ¬ opening <:+: back := fun hpiece ↦
          hslot ⟨front, back, hcontent.symm⟩ (hpiece.trans ⟨front ++ closing, [], by simp [hcontent]⟩)
        rw [occurrences, hrecut, List.map_cons]
        refine List.forall_mem_cons.mpr ⟨⟨slot, List.mem_cons_self .., .inr ⟨back, hcontent⟩⟩, ?_⟩
        rwa [recut, ← h.occurrences_behind hback] at hrest

end Short

end Cuts

end LocalizedSite
