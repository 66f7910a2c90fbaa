import LocalizedSite.Proofs.Extract.Inserted
import LocalizedSite.Proofs.Extract.KnownData
import LocalizedSite.Proofs.Extract.Opened
import LocalizedSite.Proofs.Extract.Run
import LocalizedSite.Proofs.Json.Quotes
import LocalizedSite.Proofs.Text.Blanks
import LocalizedSite.Proofs.Text.Marks

/-!
# The marks of the head

Where the language of a document and behind it its canonical link are read, two marks are put: the `lang`
attribute and the canonical link with the line behind it, both with their placeholders. No later pass goes
into a mark, unless a text that is taken holds a piece of one (`isMarkPiece`), so both stand in the
template (`Run.has_marks`).
-/

namespace LocalizedSite

/-- What rewriting one slot in its place keeps is kept when all slots are rewritten. `good` is what the
states must fulfil, and they do so from the end on. -/
theorem Cuts.rewrite_in_place {σ : Type} {recognize : Recognizer Slot} (hframing : Slot.Framing recognize)
    {step : σ → Slot → Text × σ} {property : Text → Prop} (good : σ → Prop)
    (hgood : ∀ state slot, good (step state slot).2 → good state)
    (hstep : ∀ {before state slot rest}, recognize (slot.text ++ rest) = some (slot, rest) →
      good (step state slot).2 → property (before ++ (slot.text ++ rest)) →
      property (before ++ ((step state slot).1 ++ rest)))
    {state : σ} {text : Text} (hfinal : good ((Cuts.all recognize text).rewrite step state).2)
    (htext : property text) : property ((Cuts.all recognize text).rewrite step state).1 := by
  have hcuts := Cuts.all_induction hframing.consuming
    (motive := fun text cuts ↦ ∀ done state, good (cuts.rewrite step state).2 →
      good state ∧ (property (done ++ text) → property (done ++ (cuts.rewrite step state).1)))
    (fun text _ done state hfinal ↦ ⟨hfinal, id⟩) ?_ text
  · exact (hcuts [] state hfinal).2 htext
  intro text before slot rest hfirst ih done state hfinal
  obtain ⟨occurrence, rfl, hread, -⟩ := Recognizer.first_eq_some hfirst
  obtain ⟨rfl, -⟩ := hframing _ _ _ hread
  rw [Cuts.rewrite_cons] at hfinal ⊢
  obtain ⟨hnext, hrest⟩ := ih (done ++ before ++ (step state slot).1) (step state slot).2 hfinal
  refine ⟨hgood state slot hnext, fun hwhole ↦ ?_⟩
  have hsplit : property (done ++ before ++ (slot.text ++ rest)) := by simpa using hwhole
  have hslot := hstep hread hnext hsplit
  simpa using hrest (by simpa using hslot)

namespace Text

/-- A piece at the end of a text stays when the text is trimmed, if it has no blank at its ends. -/
theorem suffix_trim {piece text : Text} (h : piece <:+ text)
    (hfirst : piece.head?.any isBlank = false) (hlast : piece.getLast?.any isBlank = false) :
    piece <:+ trim text := by
  obtain ⟨front, rfl⟩ := h
  cases piece with
  | nil => exact List.nil_suffix
  | cons first others =>
      have hstart : trim (front ++ first :: others) = trimEnd (trimStart front ++ first :: others) :=
        congrArg trimEnd (trim_start_append (by simpa using hfirst) front others)
      rw [hstart]
      obtain ⟨all, last, hpiece⟩ := (List.eq_nil_or_concat (first :: others)).resolve_left (by simp)
      rw [hpiece, List.concat_eq_append] at hlast ⊢
      have hend := trim_end_append (show isBlank last = false by simpa using hlast)
        (trimStart front ++ all) []
      rw [List.append_assoc] at hend
      rw [hend, List.append_assoc]
      exact ⟨trimStart front, rfl⟩

/-- A text ends like every end of it. -/
theorem getLast_of_suffix {piece text : Text} (h : piece <:+ text) (hne : piece ≠ []) :
    text.getLast? = piece.getLast? := by
  obtain ⟨front, rfl⟩ := h
  rw [List.getLast?_append_of_ne_nil _ hne]

/-- A text begins like every beginning of it. -/
theorem head_of_prefix {piece text : Text} (h : piece <+: text) (hne : piece ≠ []) :
    text.head? = piece.head? := by
  obtain ⟨back, rfl⟩ := h
  rw [List.head?_append_of_ne_nil _ hne]

/-- All ways of cutting a text in two. -/
def splits (text : Text) : List (Text × Text) :=
  text.inits.zip text.tails

theorem mem_splits {text first second : Text} :
    (first, second) ∈ splits text ↔ first ++ second = text :=
  List.mem_zip_inits_tails

/-- What is checked for all ways of cutting a text in two. -/
theorem forall_splits {text : Text} (test : Text → Text → Bool)
    (h : (splits text).all (fun split ↦ test split.1 split.2) = true) {first second : Text}
    (hsplit : text = first ++ second) : test first second = true :=
  List.all_eq_true.mp h (first, second) (mem_splits.mpr hsplit.symm)

end Text

namespace Extract

open Slot Placeholder Harvest

/-- The language attribute with its placeholder. -/
def languageMark : Text :=
  "lang=\"".toList ++ Structural.text .htmlLang ++ ['"']

/-- The canonical link with its placeholder, and the line behind it. -/
def canonicalMark : Text :=
  "<link rel=\"canonical\" href=\"".toList ++ Structural.text .canonicalUrl ++ "\">".toList ++
    headLine .hreflangTags

/-- The marks of the head in their order. -/
def headMarks : List Text := [languageMark, canonicalMark]

/-- Whether a text may end inside a mark: it has opening braces, or it ends like the front of a mark before
a quote. -/
def endsInMark (text : Text) : Bool :=
  occursIn text ||
    ["lang=", "rel=", "rel=\"canonical", "href="].any fun ending ↦ Text.endsWith text ending.toList

/-- Whether a text may hold a piece of a mark. -/
def isMarkPiece (text : Text) : Bool :=
  endsInMark text || text == "canonical".toList

/-- What is checked for all ways of cutting a mark in two. -/
theorem forall_mark_splits (test : Text → Text → Bool)
    (h : headMarks.all (fun mark ↦ (Text.splits mark).all fun split ↦ test split.1 split.2) = true)
    {mark first second : Text} (hmark : mark ∈ headMarks) (hsplit : mark = first ++ second) :
    test first second = true :=
  Text.forall_splits test (List.all_eq_true.mp h mark hmark) hsplit

section Pieces

variable {mark first second : Text}

/-- A mark has its placeholder. -/
theorem mark_braces (hmark : mark ∈ headMarks) : occursIn mark = true := by
  have hall : headMarks.all occursIn = true := by decide
  exact List.all_eq_true.mp hall mark hmark

theorem mark_ne_nil (hmark : mark ∈ headMarks) : mark ≠ [] := by
  rintro rfl
  exact absurd (mark_braces hmark) (by decide)

/-- Behind a frame character the placeholder of the mark is still to come. -/
theorem occurs_behind_frame (hmark : mark ∈ headMarks) (hsplit : mark = first ++ second)
    (hends : first.getLast?.any isFrameEnd = true) (hne : second ≠ []) : occursIn second = true := by
  have htest := forall_mark_splits
    (fun first second ↦ !first.getLast?.any isFrameEnd || second.isEmpty || occursIn second)
    (by decide) hmark hsplit
  simpa [hends, hne] using htest

/-- Before a frame character a text that is the front of a mark ends in the mark. -/
theorem ends_before_frame (hmark : mark ∈ headMarks) (hsplit : mark = first ++ second)
    (hne : first ≠ []) (hbegins : second.head?.any isFrameStart = true) : endsInMark first = true := by
  have htest := forall_mark_splits
    (fun first second ↦ first.isEmpty || !second.head?.any isFrameStart || endsInMark first)
    (by decide) hmark hsplit
  simpa [hbegins, hne] using htest

/-- Between two frame characters a mark has no other text than such a piece. -/
theorem piece_between_frames {piece : Text} (hmark : mark ∈ headMarks)
    (hsplit : mark = first ++ (piece ++ second)) (hends : first.getLast?.any isFrameEnd = true)
    (hbegins : second.head?.any isFrameStart = true) : isMarkPiece piece = true := by
  have htest := forall_mark_splits
    (fun first rest ↦ !first.getLast?.any isFrameEnd ||
      (Text.splits rest).all fun split ↦
        !split.2.head?.any isFrameStart || isMarkPiece split.1)
    (by decide) hmark hsplit
  have hrest := Text.forall_splits
    (fun piece second ↦ !second.head?.any isFrameStart || isMarkPiece piece)
    (by simpa [hends] using htest) (rfl : piece ++ second = _)
  simpa [hbegins] using hrest

/-- What a text may end in decides whether it may end inside a mark. -/
theorem ends_in_mark_of_suffix {piece text : Text} (hsuffix : piece <:+ text)
    (h : endsInMark piece = true) : endsInMark text = true := by
  simp only [endsInMark, Bool.or_eq_true, List.any_eq_true, Text.endsWith,
    List.isSuffixOf_iff_suffix] at h ⊢
  rcases h with hbraces | ⟨ending, hmem, hends⟩
  · exact .inl (occurs_in_iff.mpr ((occurs_in_iff.mp hbraces).trans hsuffix.isInfix))
  · exact .inr ⟨ending, hmem, hends.trans hsuffix⟩

/-- A text is no piece of a mark if it is none without the blanks around it. -/
theorem is_mark_piece_of_trim {text : Text} (h : isMarkPiece (Text.trim text) = false) :
    isMarkPiece text = false := by
  simp only [isMarkPiece, endsInMark, Bool.or_eq_false_iff, List.any_eq_false, Text.endsWith,
    List.isSuffixOf_iff_suffix, beq_eq_false_iff_ne] at h ⊢
  obtain ⟨⟨hbraces, hends⟩, hcanonical⟩ := h
  refine ⟨⟨occurs_in_of_trim hbraces, fun ending hmem hsuffix ↦ hends ending hmem ?_⟩, ?_⟩
  · have hall : ["lang=", "rel=", "rel=\"canonical", "href="].all (fun ending ↦
        !ending.toList.head?.any Text.isBlank && !ending.toList.getLast?.any Text.isBlank) = true := by
      decide
    have hblank := List.all_eq_true.mp hall ending hmem
    rw [Bool.and_eq_true, Bool.not_eq_true', Bool.not_eq_true'] at hblank
    exact Text.suffix_trim hsuffix hblank.1 hblank.2
  · rintro rfl
    exact hcanonical (by decide)

/-- A framed content that holds no piece of a mark is spared. -/
theorem spares_content {slot : Slot} (hframed : slot.Framed) (h : isMarkPiece slot.content = false)
    (hmark : mark ∈ headMarks) (before after : Text) :
    Spares (before ++ slot.opening) slot.content (slot.closing ++ after) mark := by
  obtain ⟨hends, -⟩ : endsInMark slot.content = false ∧ _ := by
    simpa only [isMarkPiece, Bool.or_eq_false_iff] using h
  have hbraces : occursIn slot.content = false := (Bool.or_eq_false_iff.mp hends).1
  have hopening := ends_append before hframed.opening_ends
  have hclosing := begins_append after hframed.closing_begins
  refine ⟨mark_ne_nil hmark, fun first second rest hsplit hfirst hsecond hsuffix hrest ↦ ?_,
    fun first second hsplit hfirst hsecond hsuffix hprefix ↦ ?_, fun hinside ↦ ?_⟩
  · -- the content begins behind a frame character of the mark
    have hframe : first.getLast?.any isFrameEnd = true := by
      rwa [Text.getLast_of_suffix hsuffix hfirst] at hopening
    have hlater := occurs_behind_frame hmark hsplit hframe hsecond
    rcases List.append_eq_append_iff.mp hrest with ⟨inner, hcontent, -⟩ | ⟨outer, hpiece, hbehind⟩
    · have hpiece : second <:+: slot.content := ⟨[], inner, by simp [hcontent]⟩
      exact absurd (occurs_in_of_piece hpiece hbraces) (by simp [hlater])
    · cases outer with
      | nil =>
          rw [List.append_nil] at hpiece
          rw [hpiece] at hlater
          exact absurd hbraces (by simp [hlater])
      | cons character outer =>
          have hstart : (character :: outer).head?.any isFrameStart = true := by
            rw [hbehind] at hclosing
            exact hclosing
          have hbetween := piece_between_frames hmark (by rw [hsplit, hpiece]) hframe hstart
          exact absurd h (by simp [hbetween])
  · -- the content ends before a frame character of the mark
    have hstart : second.head?.any isFrameStart = true := by
      rwa [Text.head_of_prefix hprefix hsecond] at hclosing
    have hpiece := ends_in_mark_of_suffix hsuffix (ends_before_frame hmark hsplit hfirst hstart)
    exact absurd hends (by simp [hpiece])
  · have hwhole : occursIn mark = false := occurs_in_of_piece hinside hbraces
    exact absurd hwhole (by simp [mark_braces hmark])

end Pieces

/-- No text that was taken holds a piece of a mark. -/
def Harvest.KeepsMarks (harvest : Harvest) : Prop :=
  ∀ taking ∈ harvest.taken, isMarkPiece taking.text = false

/-- If no text holds a piece of a mark in the end, none of those taken before does. -/
theorem Harvest.KeepsMarks.of_gathers {vocabulary : Vocabulary} {state next : Agenda × Harvest}
    (hgathers : Gathers vocabulary state next) (h : next.2.KeepsMarks) : state.2.KeepsMarks :=
  fun taking hmem ↦ h taking (hgathers.taken_suffix.subset hmem)

section Steps

variable {vocabulary : Vocabulary} {state next : Agenda × Draft}

/-- One small step of a pass leaves the marks. -/
theorem Rewrites.has_marks (hstep : Rewrites vocabulary state next) (hkeeps : next.2.2.KeepsMarks)
    (h : HasMarks headMarks state.2.1) : HasMarks headMarks next.2.1 := by
  cases hstep with
  | advance text hstep => exact h
  | @place agenda harvest taking slot padding before after hframed hmem htext hpadding =>
      have hcontent : isMarkPiece slot.content = false := by
        have htaken := hkeeps taking hmem
        rcases htext with heq | heq
        · rwa [heq] at htaken
        · rw [heq] at htaken
          exact is_mark_piece_of_trim htaken
      have hsplit : HasMarks headMarks
          ((before ++ slot.opening) ++ (slot.content ++ (slot.closing ++ after))) := by
        simpa [Slot.text_eq] using h
      have hreplaced := hsplit.replace
        (fun mark hmark ↦ spares_content hframed hcontent hmark before after)
        ((taking.reference harvest.scope).text ++ padding)
      simpa [withContent] using hreplaced

/-- A sequence of small steps leaves the marks. -/
theorem Rewriting.has_marks (hsteps : Rewriting vocabulary state next) (hkeeps : next.2.2.KeepsMarks)
    (h : HasMarks headMarks state.2.1) : HasMarks headMarks next.2.1 := by
  induction hsteps with
  | refl => exact h
  | @tail middle next hsteps hstep ih =>
      have hgathers := Rewriting.gathers (Relation.ReflTransGen.single hstep)
      exact hstep.has_marks hkeeps (ih (hkeeps.of_gathers hgathers))

end Steps

section Insertions

variable {front back : Text}

/-- No front of a mark ends like the text. -/
def OutsideBehind (front : Text) : Prop :=
  ∀ mark ∈ headMarks, ∀ first second, mark = first ++ second → first ≠ [] → second ≠ [] →
    ¬ first <:+ front

/-- Whether a text and the fronts of marks end differently. -/
def endsOutside (ending : Text) : Bool :=
  headMarks.all fun mark ↦ (Text.splits mark).all fun split ↦
    split.1.isEmpty || split.2.isEmpty ||
      !(Text.endsWith ending split.1 || Text.endsWith split.1 ending)

/-- What a text ends in tells that no front of a mark ends there. -/
theorem outside_behind {ending : Text} (h : endsOutside ending = true) (passed : Text) :
    OutsideBehind (passed ++ ending) := by
  intro mark hmark first second hsplit hfirst hsecond hsuffix
  have htest := forall_mark_splits (fun first second ↦ first.isEmpty || second.isEmpty ||
    !(Text.endsWith ending first || Text.endsWith first ending)) h hmark hsplit
  have hapart : (Text.endsWith ending first || Text.endsWith first ending) = false := by
    simpa only [List.isEmpty_eq_false_iff.mpr hfirst, List.isEmpty_eq_false_iff.mpr hsecond,
      Bool.false_or, Bool.not_eq_true'] using htest
  rcases List.suffix_or_suffix_of_suffix hsuffix (List.suffix_append passed ending) with hends | hends
  · exact absurd hapart (by simp [Text.endsWith, List.isSuffixOf_iff_suffix.mpr hends])
  · exact absurd hapart (by simp [Text.endsWith, List.isSuffixOf_iff_suffix.mpr hends])

/-- Text may be inserted where no front of a mark ends. -/
theorem has_marks_insert (hfront : OutsideBehind front) (h : HasMarks headMarks (front ++ back))
    (inserted : Text) : HasMarks headMarks (front ++ (inserted ++ back)) := by
  have hsplit : HasMarks headMarks (front ++ ([] ++ back)) := h
  refine HasMarks.replace hsplit (fun mark hmark ↦ ⟨mark_ne_nil hmark,
    fun first second rest hsplit hfirst hsecond hsuffix _ ↦
      hfront mark hmark first second hsplit hfirst hsecond hsuffix,
    fun first second _ hfirst _ hsuffix _ ↦ hfirst (List.suffix_nil.mp hsuffix),
    fun hinside ↦ mark_ne_nil hmark (List.infix_nil.mp hinside)⟩) inserted

end Insertions

section LinkedData

/-- No mark begins in the middle with an angle bracket. -/
theorem no_bracket_inside {mark first second : Text} (hmark : mark ∈ headMarks)
    (hsplit : mark = first ++ second) (hfirst : first ≠ []) : second.head? ≠ some '<' := by
  have htest := forall_mark_splits (fun first second ↦ first.isEmpty || second.head? != some '<')
    (by decide) hmark hsplit
  simpa [hfirst] using htest

/-- A mark has the beginning of a quoted value with a placeholder. -/
theorem value_mark_inside {mark : Text} (hmark : mark ∈ headMarks) : Json.valueMark <:+: mark := by
  have hall : headMarks.all (fun mark ↦ Text.contains mark Json.valueMark) = true := by decide
  exact Text.contains_iff.mp (List.all_eq_true.mp hall mark hmark)

/-- A block of linked data is spared. -/
theorem spares_linked_data {text rest : Text} {slot : Slot} {value : Json} {mark : Text}
    (hread : recognizeLinkedData text = some (slot, rest)) (hparse : Json.parse slot.content = .ok value)
    (hmark : mark ∈ headMarks) (before : Text) :
    Spares (before ++ slot.opening) slot.content (slot.closing ++ rest) mark := by
  obtain ⟨hopening, hclosing, -⟩ := between_eq_some hread
  have hbehind : OutsideBehind (before ++ slot.opening) := by
    rw [hopening]
    exact outside_behind (by decide) before
  refine ⟨mark_ne_nil hmark, fun first second _ hsplit hfirst hsecond hsuffix _ ↦
    hbehind mark hmark first second hsplit hfirst hsecond hsuffix,
    fun first second hsplit hfirst hsecond _ hprefix ↦ ?_, fun hinside ↦ ?_⟩
  · refine no_bracket_inside hmark hsplit hfirst ?_
    rw [← Text.head_of_prefix hprefix hsecond, hclosing]
    rfl
  · exact Json.parse_no_value_mark hparse ((value_mark_inside hmark).trans hinside)

/-- Taking the texts of linked data leaves the marks. -/
theorem linked_data_has_marks {harvest : Harvest} {html : Text} (h : HasMarks headMarks html) :
    HasMarks headMarks (linkedDataTexts harvest html).1 := by
  refine Cuts.rewrite_in_place framing_linked_data (fun _ : BlockScan ↦ True) (fun _ _ _ ↦ trivial)
    (fun {before scan slot rest} hread _ hslot ↦ ?_) trivial h
  rw [rewrite_block_eq]
  cases hparse : Json.parse slot.content with
  | error fault => simpa [newContent, hparse, Slot.text] using hslot
  | ok value =>
      have hsplit : HasMarks headMarks
          ((before ++ slot.opening) ++ (slot.content ++ (slot.closing ++ rest))) := by
        simpa [Slot.text_eq] using hslot
      have hreplaced := hsplit.replace (fun mark hmark ↦ spares_linked_data hread hparse hmark before)
        (newContent harvest.scope (scan.blocks + 1) slot.content)
      simpa [withContent] using hreplaced

end LinkedData

section Head

/-- A quote with opening braces behind it. -/
def openedQuote : Text := '"' :: openBraces

/-- Nothing is opened in a text exactly when no quote has opening braces behind it. -/
theorem opened_eq_zero_iff {text : Text} : opened text = 0 ↔ ¬ openedQuote <:+: text := by
  induction text with
  | nil => simp [opened, openedQuote]
  | cons character text ih =>
      rw [opened, Nat.add_eq_zero_iff, ih, List.infix_cons_iff, not_or]
      refine and_congr_left fun _ ↦ ?_
      rw [openedQuote, List.cons_prefix_cons]
      by_cases hhere : character = '"' ∧ Text.startsWith text openBraces = true
      · rw [if_pos hhere]
        exact iff_of_false (by decide)
          (not_not.mpr ⟨hhere.1.symm, Text.starts_with_iff.mp hhere.2⟩)
      · rw [if_neg hhere]
        exact iff_of_true rfl fun hquote ↦ hhere ⟨hquote.1.symm, Text.starts_with_iff.mpr hquote.2⟩

/-- A value without a placeholder opens nothing. -/
theorem opened_value {slot : Slot} (hvalue : IsValue slot) (hends : EndsTag slot.closing)
    (hopening : '\x7b' ∉ slot.opening) : opened slot.text = 0 := by
  have hquoted (front rest : Text) (hfront : '\x7b' ∉ front) :
      opened (front ++ '"' :: rest) = opened ('"' :: rest) := by
    induction front with
    | nil => rfl
    | cons character front ih =>
        obtain ⟨-, hfront⟩ := not_or.mp (mt List.mem_cons.mpr hfront)
        have hstart : Text.startsWith front openBraces = false := by
          cases front with
          | nil => rfl
          | cons first front =>
              have hne : ('\x7b' == first) = false := by
                simpa using fun heq ↦ hfront (by simp [← heq])
              simp [Text.startsWith, openBraces, List.isPrefixOf, hne]
        rw [List.cons_append, opened, starts_with_braces_append front (by decide), hstart, ih hfront]
        simp
  obtain ⟨front, hfront⟩ := hvalue.opening_ends
  obtain ⟨back, hback⟩ := hvalue.closing_begins
  have htext : slot.text = front ++ '"' :: (slot.content ++ '"' :: back) := by
    simp [Slot.text_eq, hfront, hback]
  have hclosing : opened ('"' :: back) = 0 := by
    simpa [hback, opened] using opened_of_ends_tag hends []
  rw [htext, hquoted _ _ (fun hmem ↦ hopening (by simp [hfront, hmem])), opened,
    starts_with_braces_append _ (by decide), hvalue.content_unfilled,
    opened_append_of_not_mem hvalue.content_unquoted, hclosing]
  simp

/-- What is read as a property begins with its opening and ends with its tag. -/
theorem recognize_property_ends {opening text rest : Text} {slot : Slot}
    (h : recognizeProperty opening text = some (slot, rest)) :
    slot.opening = opening ∧ ∃ inner, slot.closing = inner ++ ['>'] := by
  obtain ⟨value, blanks, slash, hread, -, -, rfl⟩ := recognize_property_cases h
  obtain ⟨hrun, -⟩ := Option.filter_eq_some_iff.mp hread
  exact ⟨(run_eq_some hrun).1, value.closing ++ (blanks ++ slash), by simp⟩

/-- A mark has a quote with opening braces behind it. -/
theorem opened_inside {mark : Text} (hmark : mark ∈ headMarks) : openedQuote <:+: mark := by
  have hall : headMarks.all (fun mark ↦ Text.contains mark openedQuote) = true := by decide
  exact Text.contains_iff.mp (List.all_eq_true.mp hall mark hmark)

/-- The end of a tag comes in a mark behind such a quote. -/
theorem opened_before_end {mark first second : Text} (hmark : mark ∈ headMarks)
    (hsplit : mark = first ++ second) (hlast : first.getLast? = some '>') : openedQuote <:+: first := by
  have htest := forall_mark_splits
    (fun first second ↦ first.getLast? != some '>' || Text.contains first openedQuote)
    (by decide) hmark hsplit
  exact Text.contains_iff.mp (by simpa [hlast] using htest)

/-- The opening of a property is a tag with a quote at its end. -/
structure IsPropertyOpening (opening : Text) : Prop where
  begins : opening.head? = some '<'
  ends : ∃ front, opening = front ++ ['"']
  plain : '\x7b' ∉ opening

/-- A property without a placeholder is spared. -/
theorem spares_property {opening text rest : Text} {slot : Slot} {mark : Text}
    (hopening : IsPropertyOpening opening) (hread : recognizeProperty opening text = some (slot, rest))
    (hmark : mark ∈ headMarks) (before : Text) : Spares before slot.text rest mark := by
  obtain ⟨hslot, inner, hinner⟩ := recognize_property_ends hread
  obtain ⟨-, hvalue, hends⟩ := fillable_property hopening.ends _ _ _ hread
  have hnone : ¬ openedQuote <:+: slot.text :=
    opened_eq_zero_iff.mp (opened_value hvalue hends (by rw [hslot]; exact hopening.plain))
  refine ⟨mark_ne_nil hmark, fun first second behind hsplit hfirst hsecond _ hrest ↦ ?_,
    fun first second hsplit hfirst _ hsuffix _ ↦ ?_, fun hinside ↦ ?_⟩
  · refine no_bracket_inside hmark hsplit hfirst ?_
    have hhead := congrArg List.head? hrest
    rw [List.head?_append_of_ne_nil _ hsecond] at hhead
    rw [hhead, Slot.text_eq, hslot, List.append_assoc, List.append_assoc]
    obtain ⟨front, hfront⟩ := hopening.ends
    rw [List.head?_append_of_ne_nil _ (by simp [hfront]), hopening.begins]
  · have hlast : first.getLast? = some '>' := by
      rw [← Text.getLast_of_suffix hsuffix hfirst, Slot.text_eq, hinner]
      simp
    exact hnone ((opened_before_end hmark hsplit hlast).trans hsuffix.isInfix)
  · exact hnone ((opened_inside hmark).trans hinside)

/-- The attribute in which the language is found comes last in the opening of its slot. -/
theorem recognize_language_opening {text rest : Text} {slot : Slot}
    (h : recognizeLanguage text = some (slot, rest)) : "lang=\"".toList <:+ slot.opening := by
  obtain ⟨front, following, value, -, hread, rfl⟩ := recognize_language_cases h
  obtain ⟨hrun, -⟩ := Option.filter_eq_some_iff.mp hread
  exact ⟨front, by simp [Slot.extendOpening, (run_eq_some hrun).1]⟩

/-- Whether the language of a document is read and the first canonical link that is read stands behind
it. -/
def readsHead (html : Text) : Bool :=
  match recognizeLanguage.first? html, recognizeCanonical.first? (fillLanguage html) with
  | some (before, language, _), some (front, _, _) =>
    Text.startsWith front (before ++ language.withContent (Structural.text .htmlLang))
  | _, _ => false

theorem reads_head_eq_true {html : Text} (h : readsHead html = true) :
    ∃ before language following between link rest,
      recognizeLanguage.first? html = some (before, language, following) ∧
      recognizeCanonical.first? (fillLanguage html) =
        some (before ++ language.withContent (Structural.text .htmlLang) ++ between, link, rest) := by
  unfold readsHead at h
  cases hlanguage : recognizeLanguage.first? html with
  | none => simp [hlanguage] at h
  | some result =>
      cases hcanonical : recognizeCanonical.first? (fillLanguage html) with
      | none => simp [hlanguage, hcanonical] at h
      | some found =>
          obtain ⟨before, language, following⟩ := result
          obtain ⟨front, link, rest⟩ := found
          simp only [hlanguage, hcanonical] at h
          obtain ⟨between, rfl⟩ := Text.starts_with_iff.mp h
          exact ⟨before, language, following, between, link, rest, rfl, rfl⟩

/-- Where language and canonical link are read, their marks are put. -/
theorem fill_canonical_has_marks {html : Text} (h : readsHead html = true) :
    HasMarks headMarks
      (fillFirst recognizeCanonical .canonicalUrl (headLine .hreflangTags) (fillLanguage html)) := by
  obtain ⟨before, language, following, between, link, rest, hlanguage, hcanonical⟩ :=
    reads_head_eq_true h
  obtain ⟨occurrence, -, hread, -⟩ := Recognizer.first_eq_some hlanguage
  obtain ⟨-, -, hclosing⟩ := recognize_language_eq_some hread
  obtain ⟨opening, hopening⟩ := recognize_language_opening hread
  obtain ⟨found, -, hlink, -⟩ := Recognizer.first_eq_some hcanonical
  obtain ⟨hrun, -⟩ := Option.filter_eq_some_iff.mp hlink
  obtain ⟨hcanonicalOpening, -⟩ := run_eq_some hrun
  have hlink : HasMarks [canonicalMark] (between ++ (canonicalMark ++ rest)) := .cons between (.nil rest)
  have hmarks : HasMarks headMarks ((before ++ opening) ++ (languageMark ++
      (between ++ (canonicalMark ++ rest)))) := .cons (before ++ opening) hlink
  have hjoin (name value mark link address ending line : Text) :
      before ++ (opening ++ name ++ value ++ mark) ++ between ++ link ++ address ++ ending ++ line ++
          rest =
        (before ++ opening) ++ ((name ++ value ++ mark) ++
          (between ++ ((link ++ address ++ ending ++ line) ++ rest))) := by
    simp
  simp only [fillFirst, hcanonical]
  rw [withContent, hcanonicalOpening, hclosing, ← hopening, hjoin]
  exact hmarks

/-- Filling a property leaves the marks. -/
theorem fill_property_has_marks (opening : Text) (hopening : IsPropertyOpening opening)
    (value : Structural) (added : Text) {html : Text} (h : HasMarks headMarks html) :
    HasMarks headMarks (fillFirst (recognizeProperty opening) value added html) := by
  unfold fillFirst
  split
  · exact h
  · next before slot rest hfirst =>
      obtain ⟨occurrence, rfl, hread, -⟩ := Recognizer.first_eq_some hfirst
      obtain ⟨rfl, -⟩ := fillable_property hopening.ends _ _ _ hread
      have hreplaced := h.replace (fun mark hmark ↦ spares_property hopening hread hmark before)
        (slot.opening ++ value.text ++ "\">".toList ++ added)
      simpa using hreplaced

/-- Filling the head puts the marks, where language and canonical link are read. -/
theorem fill_head_has_marks {html : Text} (h : readsHead html = true) :
    HasMarks headMarks (fillHead html) := by
  have hcanonical := fill_canonical_has_marks h
  have hpage := fill_property_has_marks "<meta property=\"og:url\" content=\"".toList
    ⟨rfl, ⟨"<meta property=\"og:url\" content=".toList, rfl⟩, by decide⟩ .pageUrl [] hcanonical
  have htwitter := fill_property_has_marks
    "<meta name=\"twitter:url\" content=\"".toList
    ⟨rfl, ⟨"<meta name=\"twitter:url\" content=".toList, rfl⟩, by decide⟩ .pageUrl [] hpage
  exact fill_property_has_marks "<meta property=\"og:locale\" content=\"".toList
    ⟨rfl, ⟨"<meta property=\"og:locale\" content=".toList, rfl⟩, by decide⟩ .ogLocale
    (headLine .ogLocaleAlternates) htwitter

end Head

section Passes

variable {vocabulary : Vocabulary}

/-- Sharing the labels of navigation leaves the marks. -/
theorem navigation_has_marks {harvest : Harvest} {html : Text}
    (hkeeps : (navigation vocabulary.navLabels harvest html).2.KeepsMarks)
    (h : HasMarks headMarks html) :
    HasMarks headMarks (navigation vocabulary.navLabels harvest html).1 := by
  have hlabels : Pass.Rewrites vocabulary [] (shareLinkLabels vocabulary.navLabels) :=
    share_link_labels_rewrites fun entry hentry ↦ by simp [Vocabulary.labels, hentry]
  refine Cuts.rewrite_in_place framing_navigation
    (fun state : Bool × Harvest ↦ state.2.KeepsMarks) (fun state slot hnext ↦ ?_)
    (fun {before state slot rest} hread hnext hslot ↦ ?_) hkeeps h
  · exact hnext.of_gathers (hlabels [] state.2 slot.content).gathers
  · obtain ⟨-, hclosing, -⟩ := between_eq_some hread
    have hshared := hlabels [] state.2 slot.content
    simp only [rewriteNavigation] at hnext ⊢
    generalize shareLinkLabels vocabulary.navLabels state.2 slot.content = shared at hshared hnext
    obtain ⟨content, final⟩ := shared
    have hcontent := (hshared.inside (before ++ slot.opening) (slot.closing ++ rest)).has_marks hnext
      (by simpa [Slot.text_eq] using hslot)
    split
    · have houtside : OutsideBehind (before ++ slot.opening ++ content ++ slot.closing) := by
        rw [hclosing]
        exact outside_behind (by decide) _
      simpa [withContent] using has_marks_insert houtside (by simpa using hcontent) switcherLine
    · simpa [withContent] using hcontent

/-- Putting the placeholder of the locale's path into the links leaves the marks. -/
theorem localize_links_has_marks {html : Text} (h : HasMarks headMarks html) :
    HasMarks headMarks (localizeLinks html) := by
  refine localize_links_keeps (fun front back hslash ↦ ?_) h
  have hbehind : OutsideBehind (front ++ ['/']) := outside_behind (by decide) front
  simpa using has_marks_insert hbehind (by simpa using hslash) (Structural.text .localePath)

end Passes

/-- Both marks stand in the template of a run that reads language and canonical link, if no text that it
takes holds a piece of a mark. -/
theorem Run.has_marks {vocabulary : Vocabulary} {scope brand html : Text}
    (run : Run vocabulary scope brand html) (hhead : readsHead run.headed.1 = true)
    (hkeeps : run.popped.2.KeepsMarks) : HasMarks headMarks (localizeLinks run.popped.1) := by
  have hlinked : HasMarks headMarks run.linked.1 := by
    rw [← run.linked_eq]
    exact linked_data_has_marks (fill_head_has_marks hhead)
  have hnavigated : HasMarks headMarks run.navigated.1 := by
    have hharvest := hkeeps.of_gathers run.navigated_gathers
    rw [← run.navigated_eq] at hharvest ⊢
    exact navigation_has_marks hharvest hlinked
  have hbody := (body_rewriting [] run.body_eq).has_marks (hkeeps.of_gathers run.body_gathers)
    hnavigated
  have hfooter : Rewriting vocabulary _ _ := footer_rewrites brand [] run.body.2 run.body.1
  have hfooted := hfooter.has_marks (hkeeps.of_gathers run.footed_gathers) hbody
  have hpopup : Rewriting vocabulary _ _ := region_popup_rewrites [] run.footed.2 run.footed.1
  exact localize_links_has_marks (hpopup.has_marks hkeeps hfooted)

end Extract

end LocalizedSite
