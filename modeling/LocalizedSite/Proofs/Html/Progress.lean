import LocalizedSite.Html.Lexer
import LocalizedSite.Proofs.Text.Occurrence

/-!
# Reading keeps every character

Whatever construct is read, the text is what was read of it and what is left (`step_keeps`), and something
was read. So a round of reading is over before its fuel is used up (`step_progress`). One lemma for each
reader, from the parts of a tag to the steps.
-/

namespace LocalizedSite.Html

section Tags

/-- A gap and what follows it are the text behind what was passed. -/
theorem gap_eq {passed text gap rest : Text} (h : readGap passed text = (gap, rest)) :
    passed.reverse ++ text = gap ++ rest := by
  induction text generalizing passed with
  | nil =>
      obtain ⟨rfl, rfl⟩ := Prod.mk.inj h
      rfl
  | cons character text ih =>
      unfold readGap at h
      split at h
      · next heq => exact absurd heq (by simp)
      · next heq =>
          obtain ⟨rfl, rfl⟩ := Prod.mk.inj h
          rw [heq]
      · next heq =>
          obtain ⟨rfl, rfl⟩ := List.cons.inj heq
          split at h
          · rw [← ih h]
            simp
          · obtain ⟨rfl, rfl⟩ := Prod.mk.inj h
            rfl

theorem quoted_eq {mark : Char} {text rest : Text} {value : RawValue}
    (h : readQuoted? mark text = some (value, rest)) : text = value.source ++ rest := by
  simp only [readQuoted?, bind, Option.bind_eq_some_iff] at h
  obtain ⟨following, hafter, ⟨content, behind⟩, hcut, h⟩ := h
  obtain ⟨rfl, rfl⟩ := Prod.mk.inj (Option.some.inj h)
  rw [Text.after_eq_some.mp hafter, Text.cut_eq_some hcut]
  simp

theorem bare_eq (text : Text) : text = (readBare text).1.source ++ (readBare text).2 := by
  rcases hspan : text.span fun character ↦ character != '>' && !Text.isBlank character
    with ⟨content, behind⟩
  simp only [readBare, hspan]
  exact (Text.span_spec hspan).1

/-- A quotation mark that is never closed is given back, with an equals sign or a blank in front. -/
theorem unclosed_eq {before signs blanks behind rest : Text} {value : RawValue}
    (hsigns : ∀ character ∈ signs, (character == '=') = true)
    (h : (if !blanks.isEmpty then
        some (⟨before ++ signs ++ blanks.dropLast, []⟩, blanks.drop blanks.dropLast.length ++ behind)
      else if 1 < signs.length then
        some (⟨before ++ signs.dropLast ++ (readBare ('=' :: behind)).1.source,
          (readBare ('=' :: behind)).1.content⟩, (readBare ('=' :: behind)).2)
      else none) = some (value, rest)) :
    before ++ (signs ++ (blanks ++ behind)) = value.source ++ rest := by
  split at h
  · obtain ⟨rfl, rfl⟩ := Prod.mk.inj (Option.some.inj h)
    have hblanks : blanks.dropLast ++ blanks.drop blanks.dropLast.length = blanks :=
      List.prefix_iff_eq_append.mp (List.dropLast_prefix blanks)
    conv => lhs; rw [← hblanks]
    simp
  · next hempty =>
      split at h
      · next hlength =>
          obtain ⟨rfl, rfl⟩ := Prod.mk.inj (Option.some.inj h)
          obtain rfl : blanks = [] := by simpa using hempty
          have hne : signs ≠ [] := List.ne_nil_of_length_pos (by omega)
          have hlast : signs = signs.dropLast ++ ['='] := by
            conv => lhs; rw [← List.dropLast_append_getLast hne]
            rw [beq_iff_eq.mp (hsigns _ (List.getLast_mem hne))]
          conv => lhs; rw [hlast]
          rw [List.nil_append, List.append_assoc, List.append_assoc, List.append_assoc, ← bare_eq]
          rfl
      · exact absurd h (by simp)

theorem value_eq {text rest : Text} {value : RawValue}
    (h : readValue? text = some (value, rest)) : text = value.source ++ rest := by
  rcases hbefore : text.span Text.isBlank with ⟨before, afterBefore⟩
  rcases hsigns : afterBefore.span (· == '=') with ⟨signs, afterSigns⟩
  rcases hblanks : afterSigns.span Text.isBlank with ⟨blanks, afterBlanks⟩
  have htext : text = before ++ (signs ++ (blanks ++ afterBlanks)) := by
    rw [(Text.span_spec hbefore).1, (Text.span_spec hsigns).1, (Text.span_spec hblanks).1]
  simp only [readValue?, hbefore, hsigns, hblanks] at h
  split at h
  · exact absurd h (by simp)
  · split at h
    · next value behind hresult =>
        obtain ⟨rfl, rfl⟩ := Prod.mk.inj (Option.some.inj h)
        have hquoted : afterBlanks = value.source ++ behind := by
          cases hsingle : readQuoted? '\'' afterBlanks with
          | some found =>
              rw [hsingle] at hresult
              rw [show found = _ from Option.some.inj hresult] at hsingle
              exact quoted_eq hsingle
          | none =>
              rw [hsingle] at hresult
              exact quoted_eq hresult
        rw [htext, hquoted]
        simp
    · split at h
      · exact htext.trans (unclosed_eq (Text.span_spec hsigns).2.1 h)
      · exact htext.trans (unclosed_eq (Text.span_spec hsigns).2.1 h)
      · obtain ⟨rfl, rfl⟩ := Prod.mk.inj (Option.some.inj h)
        conv => lhs; rw [htext, bare_eq afterBlanks]
        simp

/-- What is read of attributes comes behind what was read before, and is followed by the rest. -/
theorem attributes_eq (fuel : Nat) (previous : Char) (attributes : List Attribute)
    (sources : List Text) (text : Text) :
    ∃ source, (readAttributes fuel previous attributes sources text).2.1.reverse.flatten =
        sources.reverse.flatten ++ source ∧
      text = source ++ (readAttributes fuel previous attributes sources text).2.2 := by
  induction fuel generalizing previous attributes sources text with
  | zero => exact ⟨[], (List.append_nil _).symm, rfl⟩
  | succ fuel ih =>
      cases text with
      | nil => exact ⟨[], (List.append_nil _).symm, rfl⟩
      | cons first text =>
          simp only [readAttributes]
          split
          · exact ⟨[], (List.append_nil _).symm, rfl⟩
          · rcases hname : text.span fun character ↦ !Text.isBlank character && character != '/' &&
              character != '=' && character != '>' with ⟨name, behind⟩
            have htext := (Text.span_spec hname).1
            -- One attribute is read, and the others behind it.
            have hone {source following : Text} {found : List Attribute} {last : Char}
                (hsource : first :: text = source ++ following) : ∃ whole,
                (readAttributes fuel last found (source :: sources) following).2.1.reverse.flatten =
                    sources.reverse.flatten ++ whole ∧
                  first :: text =
                    whole ++ (readAttributes fuel last found (source :: sources) following).2.2 := by
              obtain ⟨others, hothers, hrest⟩ := ih last found (source :: sources) following
              refine ⟨source ++ others, ?_, ?_⟩
              · rw [hothers]
                simp
              · rw [List.append_assoc, ← hrest, hsource]
            dsimp only
            split
            · next value rest hvalue =>
                rcases hgap : readGap [] rest with ⟨gap, following⟩
                refine hone ?_
                have hrest : rest = gap ++ following := gap_eq hgap
                rw [htext, value_eq hvalue, hrest]
                simp
            · rcases hgap : readGap [] behind with ⟨gap, following⟩
              refine hone ?_
              have hrest : behind = gap ++ following := gap_eq hgap
              rw [htext, hrest]
              simp

end Tags

/-- A construct that is read is not empty, and is followed by the rest of the text. -/
def Reading.Keeps (text : Text) : Reading → Prop
  | complete lexeme rest => text = lexeme.source ++ rest ∧ lexeme.source ≠ []
  | incomplete => True
  | rejected => True

section Constructs

variable {text : Text}

theorem read_start_tag_keeps (others : Text) : (readStartTag ('<' :: others)).Keeps ('<' :: others) := by
  rcases hname : others.span fun character ↦ !endsTagName character with ⟨name, afterName⟩
  rcases hgap : readGap [] afterName with ⟨gap, afterGap⟩
  have hgapText : afterName = gap ++ afterGap := gap_eq hgap
  obtain ⟨source, hsources, hrest⟩ := attributes_eq afterGap.length
    (('<' :: name ++ gap).getLast?.getD '<') [] ['<' :: name ++ gap] afterGap
  simp only [readStartTag, List.drop_succ_cons, List.drop_zero, hname, hgap]
  rcases hread : readAttributes afterGap.length (('<' :: name ++ gap).getLast?.getD '<') []
    ['<' :: name ++ gap] afterGap with ⟨attributes, sources, rest⟩
  simp only [hread] at hsources hrest ⊢
  have htext : '<' :: others = sources.reverse.flatten ++ rest := by
    rw [hsources, (Text.span_spec hname).1, hgapText, hrest]
    simp
  split
  · trivial
  · exact ⟨by simpa using htext, by simp⟩
  · exact ⟨by simpa using htext, by simp⟩
  · split
    · trivial
    · refine ⟨htext, ?_⟩
      show sources.reverse.flatten ≠ []
      rw [hsources]
      simp

theorem read_end_tag_keeps (others : Text) :
    (readEndTag ('<' :: '/' :: others)).Keeps ('<' :: '/' :: others) := by
  simp only [readEndTag, List.drop_succ_cons, List.drop_zero]
  split
  · trivial
  · next inside rest hcut =>
      refine ⟨?_, by simp⟩
      rw [Text.cut_eq_some hcut]
      simp

/-- A recogniser that gives back what it reads. -/
def KeepsText (recognize : Recognizer Text) : Prop :=
  ∀ text source rest, recognize text = some (source, rest) → text = source ++ rest

theorem keeps_spaced (mark : Text) : KeepsText (recognizeSpaced mark) := by
  intro text source rest h
  induction mark generalizing text source with
  | nil =>
      obtain ⟨rfl, rfl⟩ := Prod.mk.inj (Option.some.inj h)
      rfl
  | cons wanted mark ih =>
      cases mark with
      | nil =>
          obtain ⟨following, hafter, hfound⟩ := Option.map_eq_some_iff.mp h
          obtain ⟨rfl, rfl⟩ := Prod.mk.inj hfound
          exact Text.after_eq_some.mp hafter
      | cons second mark =>
          simp only [recognizeSpaced, bind, Option.bind_eq_some_iff] at h
          obtain ⟨following, hafter, h⟩ := h
          rcases hblanks : following.span Text.isBlank with ⟨blanks, behind⟩
          simp only [hblanks] at h
          obtain ⟨⟨found, last⟩, hmark, h⟩ := h
          obtain ⟨rfl, rfl⟩ := Prod.mk.inj (Option.some.inj h)
          rw [Text.after_eq_some.mp hafter, (Text.span_spec hblanks).1, ih behind found hmark]
          simp

theorem keeps_comment_end : KeepsText recognizeCommentEnd := by
  intro text source rest h
  simp only [recognizeCommentEnd, bind, Option.bind_eq_some_iff] at h
  obtain ⟨following, hafter, ⟨found, behind⟩, hmark, h⟩ := h
  obtain ⟨rfl, rfl⟩ := Prod.mk.inj (Option.some.inj h)
  rw [Text.after_eq_some.mp hafter, keeps_spaced _ _ _ _ hmark]
  rfl

theorem read_up_to_keeps {opening : Text} {ending : Recognizer Text} {token : Text → Token}
    (hending : KeepsText ending) (hne : opening ≠ []) (hopening : opening <+: text) :
    (readUpTo opening ending token text).Keeps text := by
  obtain ⟨behind, rfl⟩ := hopening
  simp only [readUpTo, List.drop_left]
  split
  · trivial
  · next data mark rest hfirst =>
      obtain ⟨occurrence, rfl, hread, -⟩ := Recognizer.first_eq_some hfirst
      refine ⟨?_, by simp [hne]⟩
      rw [hending _ _ _ hread]
      simp

theorem read_section_keeps : (readSection text).Keeps text := by
  simp only [readSection]
  split
  · trivial
  · next initial rest htext =>
      have hne : text.take 3 ≠ [] := by
        intro hnil
        obtain hzero | rfl := List.take_eq_nil_iff.mp hnil
        · exact absurd hzero (by decide)
        · exact absurd htext (by simp)
      split
      · trivial
      · split
        · trivial
        · split
          · exact read_up_to_keeps (keeps_spaced _) hne (List.take_prefix 3 text)
          · split
            · exact read_up_to_keeps (keeps_spaced _) hne (List.take_prefix 3 text)
            · trivial

theorem read_doctype_keeps (others : Text) :
    (readDoctype ('<' :: '!' :: others)).Keeps ('<' :: '!' :: others) := by
  simp only [readDoctype, List.drop_succ_cons, List.drop_zero]
  split
  · trivial
  · next data rest hcut =>
      refine ⟨?_, by simp⟩
      have hothers := List.take_append_drop 7 others
      rw [Text.cut_eq_some hcut] at hothers
      conv => lhs; rw [← hothers]
      simp

/-- The images of a text come behind those that are done. -/
theorem lower_from_eq (passed : Text) (done : List Text) (text : Text) :
    Text.lowerFrom passed done text = done.reverse ++ Text.lowerFrom passed [] text := by
  induction text generalizing passed done with
  | nil => simp [Text.lowerFrom]
  | cons character text ih =>
      rw [Text.lowerFrom, Text.lowerFrom, ih _ (_ :: done), ih _ [_]]
      simp

/-- Only the exclamation mark has a lowercase form that begins with one. -/
theorem lower_character_mark {character : Char} {behind others : Text}
    (h : Text.lowerCharacter character ++ behind = '!' :: others) : character = '!' := by
  have hvalue {number : Nat} (hnumber : Char.ofNat number = '!') : number = 33 := by
    by_cases hvalid : number.isValidChar
    · have hcode : (Char.ofNat number).toNat = number := by
        rw [Char.ofNat, dif_pos hvalid]
        rfl
      rw [← hcode, hnumber]
      rfl
    · rw [Char.ofNat, dif_neg hvalid] at hnumber
      exact absurd hnumber (by decide)
  unfold Text.lowerCharacter at h
  split at h
  · split at h
    · next hcapital =>
        have hfirst : 65 ≤ character.toNat := of_decide_eq_true (Bool.and_eq_true_iff.mp hcapital).1
        have hnumber := hvalue (List.cons.inj h).1
        omega
    · exact (List.cons.inj h).1
  · split at h
    · exact absurd (List.cons.inj h).1 (by decide)
    · next hlarge _ =>
        have himage := (List.cons.inj h).1
        simp only [Text.mapByRuns] at himage
        split at himage
        · next first last step distance hfind =>
            have hruns : ∀ run ∈ Text.lowerRuns, run.2.1 < 128 ∨ 33 < (run.1 : Int) + run.2.2.2 := by
              decide +kernel
            have hrun := hruns _ (List.mem_of_find?_eq_some hfind)
            have hcode := List.find?_some hfind
            have hnumber := hvalue himage
            simp only [Bool.and_eq_true, decide_eq_true_eq] at hcode hrun
            omega
        · exact himage

/-- A document type begins with an exclamation mark behind the angle bracket. -/
theorem second_of_doctype {second : Char} {others : Text}
    (h : startsDoctype ('<' :: second :: others) = true) : second = '!' := by
  have hlower : Text.lower ('<' :: second :: others.take 7) = '<' :: '!' :: "doctype".toList :=
    of_decide_eq_true h
  rw [Text.lower, Text.lowerFrom, Text.lowerFrom, lower_from_eq,
    if_neg (show ¬ '<'.toNat = 931 by decide), show Text.lowerCharacter '<' = ['<'] from rfl] at hlower
  simp only [List.reverse_cons, List.reverse_nil, List.nil_append, List.flatten_cons,
    List.cons_append] at hlower
  have hbehind := (List.cons.inj hlower).2
  split at hbehind
  · have hsigma := (List.cons.inj hbehind).1
    split at hsigma <;> exact absurd hsigma (by decide)
  · exact lower_character_mark hbehind

theorem read_construct_keeps (others : Text) :
    (readConstruct ('<' :: others)).Keeps ('<' :: others) := by
  cases others with
  | nil => trivial
  | cons second others =>
      simp only [readConstruct, List.drop_succ_cons, List.drop_zero]
      split
      · exact read_start_tag_keeps _
      · split
        · next hsecond =>
            rw [hsecond]
            exact read_end_tag_keeps others
        · split
          · next hopening =>
              exact read_up_to_keeps keeps_comment_end (by simp) (Text.starts_with_iff.mp hopening)
          · split
            · next hsecond =>
                rw [hsecond]
                exact read_up_to_keeps (keeps_spaced _) (by simp) ⟨others, rfl⟩
            · split
              · exact read_section_keeps
              · split
                · next hdoctype =>
                    rw [second_of_doctype hdoctype]
                    exact read_doctype_keeps others
                · split
                  · next hsecond =>
                      rw [hsecond]
                      exact read_up_to_keeps (keeps_spaced _) (by simp) ⟨others, rfl⟩
                  · exact ⟨rfl, by simp [Lexeme.ofText]⟩

end Constructs

section Steps

/-- What a step reads is not empty, if reading goes on, and is followed by the rest of the text. -/
def Step.Keeps (text : Text) : Step → Prop
  | read lexeme _ rest => text = lexeme.source ++ rest ∧ lexeme.source ≠ []
  | last lexeme rest => text = lexeme.source ++ rest
  | stop => True
  | rejected => True

theorem digits_eq {text source rest : Text} {number : Nat}
    (h : readDigits? text = some (number, source, rest)) : text = source ++ rest := by
  unfold readDigits? at h
  split at h
  · next mark following =>
      split at h
      · rcases hspan : following.span Text.isHexDigit with ⟨digits, behind⟩
        simp only [hspan] at h
        split at h
        · exact absurd h (by simp)
        · obtain ⟨-, rfl, rfl⟩ := by simpa using h
          rw [(Text.span_spec hspan).1]
          rfl
      · rcases hspan : (mark :: following).span Text.isLatinDigit with ⟨digits, behind⟩
        simp only [hspan] at h
        split at h
        · exact absurd h (by simp)
        · obtain ⟨-, rfl, rfl⟩ := by simpa using h
          exact (Text.span_spec hspan).1
  · exact absurd h (by simp)

theorem numeric_eq {text source rest : Text} {number : Nat}
    (h : readNumeric? text = some (number, source, rest)) : text = source ++ rest := by
  unfold readNumeric? at h
  split at h
  · next hdigits =>
      obtain ⟨-, rfl, rfl⟩ := by simpa using h
      rw [digits_eq hdigits]
      simp
  · next hdigits =>
      split at h
      · exact absurd h (by simp)
      · obtain ⟨-, rfl, rfl⟩ := by simpa using h
        exact digits_eq hdigits
  · exact absurd h (by simp)

theorem name_eq {text name source rest : Text} (h : readName? text = some (name, source, rest)) :
    text = source ++ rest := by
  simp only [readName?] at h
  split at h
  · next initial following =>
      split at h
      · rcases hspan : (initial :: following).span isReferenceCharacter with ⟨found, behind⟩
        have htext := (Text.span_spec hspan).1
        simp only [hspan] at h
        split at h
        · obtain ⟨-, rfl, rfl⟩ := by simpa using h
          simpa using htext
        · obtain ⟨-, rfl, rfl⟩ := by simpa using h
          exact htext
        · split at h
          · exact absurd h (by simp)
          · obtain ⟨-, hrest⟩ := Prod.mk.inj (Option.some.inj h)
            obtain ⟨rfl, rfl⟩ := Prod.mk.inj hrest
            rw [htext, List.append_nil]
            refine (List.prefix_iff_eq_append.mp ?_).symm
            rw [← List.reverse_suffix, List.reverse_reverse]
            exact (List.drop_suffix _ _).trans (List.dropWhile_suffix _)
      · exact absurd h (by simp)
  · exact absurd h (by simp)

theorem read_reference_keeps (final : Bool) (following : Text) :
    (readReference final ('&' :: following)).Keeps ('&' :: following) := by
  simp only [readReference, List.drop_succ_cons, List.drop_zero]
  split
  · split
    · next number source rest hread =>
        refine ⟨?_, by simp⟩
        rw [numeric_eq hread]
        rfl
    · split
      · rfl
      · trivial
  · split
    · next name source rest hread =>
        refine ⟨?_, by simp⟩
        rw [name_eq hread]
        rfl
    · split
      · trivial
      · split
        · split
          · rfl
          · trivial
        · exact ⟨rfl, by simp [Lexeme.ofText]⟩

/-- What is taken of an unfinished construct is a beginning of the text. -/
theorem unfinished_part_prefix {text : Text} : unfinishedPart text <+: text := by
  have htext := List.take_append_drop 1 text
  simp only [unfinishedPart]
  split
  · next before behind hcut =>
      refine ⟨behind, ?_⟩
      conv => rhs; rw [← htext, Text.cut_eq_some hcut]
      simp
  · split
    · next before behind hcut =>
        refine ⟨'<' :: behind, ?_⟩
        conv => rhs; rw [← htext, Text.cut_eq_some hcut]
        simp
    · exact List.take_prefix 1 text

theorem unfinished_part_ne_nil {text : Text} (hne : text ≠ []) : unfinishedPart text ≠ [] := by
  obtain ⟨character, following, rfl⟩ := List.exists_cons_of_ne_nil hne
  simp only [unfinishedPart]
  split
  · simp
  · split <;> simp

theorem read_markup_keeps (final : Bool) (others : Text) :
    (readMarkup final ('<' :: others)).Keeps ('<' :: others) := by
  have hconstruct := read_construct_keeps others
  simp only [readMarkup]
  split
  · trivial
  · next lexeme rest hread =>
      rw [hread] at hconstruct
      exact hconstruct
  · split
    · exact ⟨(List.prefix_iff_eq_append.mp unfinished_part_prefix).symm,
        unfinished_part_ne_nil (by simp)⟩
    · trivial

/-- The end tag of a raw text element is read from the beginning of the text. -/
theorem recognize_raw_end_eq_some {element text source rest : Text}
    (h : recognizeRawEnd element text = some (source, rest)) :
    text = source ++ rest ∧ source ≠ [] := by
  simp only [recognizeRawEnd, bind, Option.bind_eq_some_iff] at h
  obtain ⟨following, hafter, h⟩ := h
  rcases hblanks : following.span Text.isBlank with ⟨blanks, behind⟩
  simp only [hblanks] at h
  split at h
  · rcases hend : (behind.drop element.length).span Text.isBlank with ⟨last, closing⟩
    simp only [hend, Option.bind_eq_some_iff] at h
    obtain ⟨remaining, hclosing, h⟩ := h
    obtain ⟨rfl, rfl⟩ := by simpa using h
    have hname := List.take_append_drop element.length behind
    rw [(Text.span_spec hend).1, Text.after_eq_some.mp hclosing] at hname
    refine ⟨?_, by simp⟩
    rw [Text.after_eq_some.mp hafter, (Text.span_spec hblanks).1]
    conv => lhs; rw [← hname]
    simp
  · exact absurd h (by simp)

/-- Every step of reading keeps the text. -/
theorem step_keeps {text : Text} (hne : text ≠ []) (references : References) (final : Bool)
    (raw : Option Text) : (step references final raw text).Keeps text := by
  unfold step
  split
  · next element =>
      split
      · trivial
      · next source rest hfirst =>
          obtain ⟨occurrence, rfl, hread, -⟩ := Recognizer.first_eq_some hfirst
          exact recognize_raw_end_eq_some hread
      · next data source rest hdata hfirst =>
          obtain ⟨occurrence, rfl, hread, -⟩ := Recognizer.first_eq_some hfirst
          obtain ⟨rfl, -⟩ := recognize_raw_end_eq_some hread
          exact ⟨rfl, hdata⟩
  · split
    · next rest hspan =>
        obtain ⟨htext, -, hrest⟩ := Text.span_spec hspan
        obtain rfl : text = rest := by simpa using htext
        obtain ⟨character, others, rfl⟩ := List.exists_cons_of_ne_nil hne
        have hends : endsText references character = true := by simpa using hrest character rfl
        split
        · next hopening =>
            obtain rfl := Option.some.inj hopening
            exact read_markup_keeps final others
        · next hother =>
            have hmark : character ≠ '<' := fun heq ↦ hother (congrArg some heq)
            obtain ⟨-, rfl⟩ : references = .decoded ∧ character = '&' := by
              simpa [endsText, hmark] using hends
            exact read_reference_keeps final others
    · next data rest hdata hspan =>
        exact ⟨(Text.span_spec hspan).1, hdata⟩

/-- Reading a step leaves less than the text, where reading goes on. -/
def Step.Shortens (text : Text) : Step → Prop
  | read _ _ rest => rest.length < text.length
  | last _ _ => True
  | stop => True
  | rejected => True

/-- Every step of reading leaves less than the text. -/
theorem step_progress {text : Text} (hne : text ≠ []) (references : References) (final : Bool)
    (raw : Option Text) : (step references final raw text).Shortens text := by
  have hkeeps := step_keeps hne references final raw
  cases hstep : step references final raw text with
  | read lexeme next rest =>
      rw [hstep] at hkeeps
      obtain ⟨htext, hsource⟩ := hkeeps
      have hpositive := List.length_pos_iff.mpr hsource
      simp only [Step.Shortens]
      rw [htext, List.length_append]
      omega
  | last lexeme rest => trivial
  | stop => trivial
  | rejected => trivial

end Steps

end LocalizedSite.Html
