import LocalizedSite.Proofs.Html.Elements
import LocalizedSite.Proofs.Html.Reading

/-!
# Raw text elements

Script and style elements hold strings only, in every document (`document_is_flat`). Behind the start tag
of such an element the tokens are text up to its end tag (`RawRun`, `lex_raw`), so that a builder has no
other open element inside of it (`Builder.IsFlat.take`).
-/

namespace LocalizedSite.Html

/-- What a token does to raw text: outside of it any token may come, and inside of it text or the end tag. -/
inductive RawStep : Option Text → Token → Option Text → Prop
  | outside (token : Token) : RawStep none token token.opensRawText?
  | text (element data : Text) : RawStep (some element) (.text data) (some element)
  | finish (element : Text) : RawStep (some element) (.finish element) none

/-- What tokens do to raw text, one after the other. -/
inductive RawRun : Option Text → List Token → Option Text → Prop
  | nil (raw : Option Text) : RawRun raw [] raw
  | cons {raw next last : Option Text} {token : Token} {tokens : List Token} (hstep : RawStep raw token next)
      (h : RawRun next tokens last) : RawRun raw (token :: tokens) last

section Lexing

variable {raw next last : Option Text}

theorem RawRun.trans {first second : List Token} (hfirst : RawRun raw first next)
    (hsecond : RawRun next second last) : RawRun raw (first ++ second) last := by
  induction hfirst with
  | nil => exact hsecond
  | cons hstep _ ih => exact .cons hstep (ih hsecond)

/-- A run of text changes nothing about raw text. -/
theorem raw_run_text (raw : Option Text) (data : Text) : RawRun raw [.text data] raw := by
  cases raw with
  | none => exact .cons (.outside (.text data)) (.nil none)
  | some element => exact .cons (.text element data) (.nil _)

/-- What a step of reading says about raw text agrees with its token. -/
def Step.KeepsRaw (raw : Option Text) : Step → Prop
  | .read lexeme next _ => RawRun raw lexeme.token.toList next
  | .last lexeme _ => RawRun raw lexeme.token.toList raw
  | .stop => True
  | .rejected => True

theorem read_markup_raw (final : Bool) (text : Text) : (readMarkup final text).KeepsRaw none := by
  unfold readMarkup
  split
  · trivial
  · next lexeme rest hread =>
      obtain ⟨source, token⟩ := lexeme
      cases token with
      | none => exact .nil none
      | some token => exact .cons (.outside token) (.nil _)
  · split
    · exact raw_run_text none _
    · trivial

theorem read_reference_raw (final : Bool) (text : Text) : (readReference final text).KeepsRaw none := by
  unfold readReference
  split
  · split
    · exact raw_run_text none _
    · split
      · exact raw_run_text none _
      · trivial
  · split
    · exact raw_run_text none _
    · split
      · trivial
      · split
        · split
          · exact .nil none
          · trivial
        · exact raw_run_text none _

theorem step_raw (references : References) (final : Bool) (raw : Option Text) (text : Text) :
    (step references final raw text).KeepsRaw raw := by
  unfold step
  split
  · next element =>
      split
      · trivial
      · exact .cons (.finish element) (.nil none)
      · exact raw_run_text _ _
  · split
    · split
      · exact read_markup_raw final _
      · exact read_reference_raw final _
    · exact raw_run_text none _

/-- The tokens of lexemes that are kept last first. -/
def tokensOf (lexemes : List Lexeme) : List Token :=
  lexemes.reverse.filterMap Lexeme.token

theorem tokens_cons (lexeme : Lexeme) (lexemes : List Lexeme) :
    tokensOf (lexeme :: lexemes) = tokensOf lexemes ++ lexeme.token.toList := by
  unfold tokensOf
  rw [List.reverse_cons, List.filterMap_append]
  cases h : lexeme.token <;> simp [h]

/-- A round keeps what it says about raw text in agreement with its tokens. -/
theorem round_raw {references : References} {final : Bool} {fuel : Nat} {state last : Round}
    (hstate : RawRun none (tokensOf state.lexemes) state.raw)
    (h : round references final fuel state = some last) :
    RawRun none (tokensOf last.lexemes) last.raw := by
  induction fuel generalizing state with
  | zero =>
      obtain rfl := Option.some.inj h
      exact hstate
  | succ fuel ih =>
      rw [round] at h
      split at h
      · obtain rfl := Option.some.inj h
        exact hstate
      · have hkeeps := step_raw references final state.raw state.rest
        split at h
        · next lexeme raw rest hstep =>
            rw [hstep] at hkeeps
            refine ih ?_ h
            rw [tokens_cons]
            exact hstate.trans hkeeps
        · next lexeme rest hstep =>
            rw [hstep] at hkeeps
            obtain rfl := Option.some.inj h
            rw [tokens_cons]
            exact hstate.trans hkeeps
        · obtain rfl := Option.some.inj h
          exact hstate
        · exact absurd h (by simp)

/-- The tokens of a document are text behind the start tag of a raw text element, up to its end tag. -/
theorem lex_raw {references : References} {text : Text} {lexemes : List Lexeme}
    (h : lex? references text = some lexemes) : ∃ raw, RawRun none (lexemes.filterMap Lexeme.token) raw := by
  rw [lex_eq, Option.bind_eq_some_iff] at h
  obtain ⟨first, hfirst, hlast⟩ := h
  obtain ⟨last, hsecond, rfl⟩ := Option.map_eq_some_iff.mp hlast
  have hbegin : RawRun none (tokensOf (⟨[], none, text⟩ : Round).lexemes) none := .nil none
  have hrun := round_raw (round_raw hbegin hfirst) hsecond
  unfold finished
  split
  · exact ⟨last.raw, hrun⟩
  · refine ⟨last.raw, ?_⟩
    show RawRun none (tokensOf _) _
    rw [tokens_cons]
    exact hrun.trans (raw_run_text last.raw last.rest)

end Lexing

/-- Whether a node is a string. -/
def Node.IsString : Node → Prop
  | .string _ _ => True
  | .element _ _ _ => False

/-- What a raw text element has inside are strings. -/
def HoldsStrings (name : Text) (children : List Node) : Prop :=
  rawTextElements.contains name = true → ∀ child ∈ children, child.IsString

/-- Every raw text element of a node holds strings only. -/
def Node.IsFlat (node : Node) : Prop :=
  ∀ element ∈ node.elements, HoldsStrings element.name element.children

section Flat

theorem Node.IsString.elements_eq {node : Node} (h : node.IsString) : node.elements = [] := by
  cases node with
  | element name attributes children => exact absurd h id
  | string kind content => rw [Node.elements]

theorem Node.IsString.isFlat {node : Node} (h : node.IsString) : node.IsFlat := by
  intro element hmem
  rw [h.elements_eq] at hmem
  exact absurd hmem List.not_mem_nil

/-- An element is flat if it may have its children and they are. -/
theorem is_flat_element_iff {name : Text} {attributes : Entries Text} {children : List Node} :
    (Node.element name attributes children).IsFlat ↔
      HoldsStrings name children ∧ ∀ child ∈ children, child.IsFlat := by
  simp only [Node.IsFlat, Node.elements, elements_eq_flatMap, List.forall_mem_cons, List.mem_flatMap]
  constructor
  · rintro ⟨hholds, hinside⟩
    exact ⟨hholds, fun child hchild element hmem ↦ hinside element ⟨child, hchild, hmem⟩⟩
  · rintro ⟨hholds, hchildren⟩
    refine ⟨hholds, ?_⟩
    rintro element ⟨child, hchild, hmem⟩
    exact hchildren child hchild element hmem

end Flat

/-- What an open element has inside so far is flat. -/
structure Frame.IsFlat (frame : Frame) : Prop where
  holds : HoldsStrings frame.name frame.children
  children : ∀ child ∈ frame.children, child.IsFlat

/-- None of the open elements is a raw text element. -/
def NoneRaw (frames : List Frame) : Prop :=
  ∀ frame ∈ frames, rawTextElements.contains frame.name = false

/-- Of the open elements, innermost first, at most the innermost is a raw text element. -/
def OpensRaw : Option Text → List Frame → Prop
  | none, frames => NoneRaw frames
  | some element, frames => rawTextElements.contains element = true ∧ ∃ frame others,
      frames = frame :: others ∧ frame.name = element ∧ NoneRaw others

namespace Builder

/-- What a builder has so far is flat, with an open raw text element or none. No end tag of a raw text
element is to be skipped. -/
structure IsFlat (raw : Option Text) (builder : Builder) : Prop where
  roots : ∀ node ∈ builder.roots, node.IsFlat
  frames : ∀ frame ∈ builder.frames, frame.IsFlat
  skipped : ∀ name ∈ builder.skipped, rawTextElements.contains name = false
  opened : OpensRaw raw builder.frames

variable {builder : Builder} {raw next : Option Text} {node : Node} {name : Text}

/-- A node may be added, if it is a string or no raw text element is open. -/
theorem IsFlat.add (h : builder.IsFlat raw) (hnode : node.IsFlat) (hplace : raw = none ∨ node.IsString) :
    (builder.add node).IsFlat raw := by
  obtain ⟨frames, roots, pieces, skipped⟩ := builder
  obtain ⟨hroots, hframes, hskipped, hopened⟩ := h
  cases frames with
  | nil => exact ⟨List.forall_mem_cons.mpr ⟨hnode, hroots⟩, hframes, hskipped, hopened⟩
  | cons frame frames =>
      obtain ⟨hframe, hothers⟩ := List.forall_mem_cons.mp hframes
      have hgrown : Frame.IsFlat { frame with children := node :: frame.children } := by
        refine ⟨fun hraw ↦ ?_, List.forall_mem_cons.mpr ⟨hnode, hframe.children⟩⟩
        refine List.forall_mem_cons.mpr ⟨hplace.resolve_left ?_, hframe.holds hraw⟩
        rintro rfl
        exact absurd (hraw.symm.trans (hopened frame (List.mem_cons_self ..))) (by decide)
      refine ⟨hroots, List.forall_mem_cons.mpr ⟨hgrown, hothers⟩, hskipped, ?_⟩
      cases raw with
      | none => exact List.forall_mem_cons.mpr (List.forall_mem_cons.mp hopened)
      | some element =>
          obtain ⟨hraw, first, others, hfirst, hname, hnone⟩ := hopened
          obtain ⟨rfl, rfl⟩ := List.cons.inj hfirst
          exact ⟨hraw, _, _, rfl, hname, hnone⟩

/-- The open string may be finished anywhere. -/
theorem IsFlat.flush (h : builder.IsFlat raw) : builder.flush.IsFlat raw := by
  unfold Builder.flush
  split
  · exact h
  · have hpieces : ({ builder with pieces := [] } : Builder).IsFlat raw :=
      ⟨h.roots, h.frames, h.skipped, h.opened⟩
    exact hpieces.add (Node.IsString.isFlat trivial) (.inr trivial)

theorem IsFlat.closeInnermost (h : builder.IsFlat raw) : builder.closeInnermost.IsFlat none := by
  obtain ⟨frames, roots, pieces, skipped⟩ := builder
  obtain ⟨hroots, hframes, hskipped, hopened⟩ := h
  cases frames with
  | nil => exact ⟨hroots, hframes, hskipped, fun _ hmem ↦ absurd hmem List.not_mem_nil⟩
  | cons frame frames =>
      obtain ⟨hframe, hothers⟩ := List.forall_mem_cons.mp hframes
      have hnone : OpensRaw none frames := by
        cases raw with
        | none => exact (List.forall_mem_cons.mp hopened).2
        | some element =>
            obtain ⟨-, first, others, hfirst, -, hnone⟩ := hopened
            rwa [(List.cons.inj hfirst).2]
      have hclosed : ({ frames, roots, pieces, skipped } : Builder).IsFlat none :=
        ⟨hroots, hothers, hskipped, hnone⟩
      refine hclosed.add (is_flat_element_iff.mpr ⟨fun hraw child hmem ↦ ?_, fun child hmem ↦ ?_⟩) (.inl rfl)
      · exact hframe.holds hraw child (List.mem_reverse.mp hmem)
      · exact hframe.children child (List.mem_reverse.mp hmem)

/-- Where elements are closed no raw text element is open. -/
theorem IsFlat.closeMany (h : builder.IsFlat raw) (count : Nat) :
    (builder.closeMany (count + 1)).IsFlat none := by
  induction count generalizing builder raw with
  | zero => exact h.closeInnermost
  | succ count ih => exact ih h.closeInnermost

/-- An end tag may close an element, if it is the one of the open raw text element or there is none. -/
theorem IsFlat.close (h : builder.IsFlat raw) (hname : raw = none ∨ raw = some name) :
    (builder.close name).IsFlat none := by
  have hflush := h.flush
  simp only [Builder.close]
  split
  · next hnone =>
      rcases hname with rfl | rfl
      · exact hflush
      · obtain ⟨-, frame, others, hframes, hfirst, -⟩ := hflush.opened
        rw [hframes, List.findIdx?_cons] at hnone
        simp [hfirst] at hnone
  · exact hflush.closeMany _

theorem IsFlat.finish (h : builder.IsFlat raw) (hname : raw = none ∨ raw = some name) :
    (builder.finish name).IsFlat none := by
  unfold Builder.finish
  split
  · next hskipped =>
      have hmem : name ∈ builder.skipped := by simpa using hskipped
      rcases hname with rfl | rfl
      · exact ⟨h.roots, h.frames, fun other hother ↦ h.skipped other (List.mem_of_mem_erase hother),
          h.opened⟩
      · exact absurd (h.opened.1.symm.trans (h.skipped name hmem)) (by decide)
  · exact h.close hname

/-- An element that is opened is a raw text element or not. -/
theorem IsFlat.openElement (h : builder.IsFlat none) (attributes : List Attribute) :
    (builder.openElement name attributes).IsFlat
      (if rawTextElements.contains name then some name else none) := by
  have hflush := h.flush
  have hframe : Frame.IsFlat ⟨name, elementAttributes attributes, []⟩ :=
    ⟨fun _ _ hmem ↦ absurd hmem List.not_mem_nil, fun _ hmem ↦ absurd hmem List.not_mem_nil⟩
  refine ⟨hflush.roots, List.forall_mem_cons.mpr ⟨hframe, hflush.frames⟩, hflush.skipped, ?_⟩
  split
  · next hraw => exact ⟨hraw, _, _, rfl, rfl, hflush.opened⟩
  · next hplain => exact List.forall_mem_cons.mpr ⟨by simpa using hplain, hflush.opened⟩

theorem IsFlat.addString (h : builder.IsFlat none) (kind : StringKind) (content : Text) :
    (builder.addString kind content).IsFlat none :=
  h.flush.add (Node.IsString.isFlat trivial) (.inl rfl)

/-- No void element is a raw text element. -/
theorem void_not_raw : ∀ name ∈ voidElements, rawTextElements.contains name = false := by
  decide

/-- A token leaves a builder flat. -/
theorem IsFlat.take (h : builder.IsFlat raw) {token : Token} (hstep : RawStep raw token next) :
    (builder.take token).IsFlat next := by
  cases hstep with
  | text element data => exact ⟨h.roots, h.frames, h.skipped, h.opened⟩
  | finish element => exact h.finish (.inr rfl)
  | outside =>
      cases token with
      | start name attributes selfClosing =>
          have hopened : (builder.openElement name attributes).IsFlat _ := h.openElement attributes
          simp only [Builder.take]
          cases selfClosing with
          | true =>
              refine hopened.finish ?_
              split
              · exact .inr rfl
              · exact .inl rfl
          | false =>
              by_cases hvoid : voidElements.contains name = true
              · have hplain := void_not_raw name (by simpa using hvoid)
                rw [hplain] at hopened
                have hclosed : ((builder.openElement name attributes).close name).IsFlat none :=
                  hopened.close (.inl rfl)
                simp only [Bool.false_eq_true, if_false, hvoid, if_true, Token.opensRawText?, hplain]
                exact ⟨hclosed.roots, hclosed.frames,
                  List.forall_mem_cons.mpr ⟨hplain, hclosed.skipped⟩, hclosed.opened⟩
              · simpa only [Bool.false_eq_true, if_false, hvoid, Token.opensRawText?] using hopened
      | finish name => exact h.finish (.inl rfl)
      | text data => exact ⟨h.roots, h.frames, h.skipped, h.opened⟩
      | comment data => exact h.addString .comment data
      | doctype data => exact h.addString .doctype (data.drop 8)
      | «section» data =>
          simp only [Builder.take]
          split
          · exact h.addString .characterData _
          · exact h.addString .declaration _
      | instruction data => exact h.addString .instruction data

/-- Tokens leave a builder flat. -/
theorem IsFlat.foldl {tokens : List Token} (h : builder.IsFlat raw) (hrun : RawRun raw tokens next) :
    (tokens.foldl Builder.take builder).IsFlat next := by
  induction hrun generalizing builder with
  | nil => exact h
  | cons hstep _ ih => exact ih (h.take hstep)

/-- A completed document is flat. -/
theorem IsFlat.complete (h : builder.IsFlat raw) : ∀ node ∈ builder.complete, node.IsFlat := by
  intro node hmem
  have hroots := List.mem_reverse.mp hmem
  have hflush := h.flush
  cases hcount : builder.flush.frames.length with
  | zero =>
      rw [hcount] at hroots
      exact hflush.roots node hroots
  | succ count =>
      rw [hcount] at hroots
      exact (hflush.closeMany count).roots node hroots

end Builder

/-- In a document every script and style element holds strings only. -/
theorem document_is_flat {text : Text} {document : List Node} (h : document? text = some document) :
    ∀ node ∈ document, node.IsFlat := by
  obtain ⟨lexemes, hlex, rfl⟩ := Option.map_eq_some_iff.mp h
  obtain ⟨raw, hrun⟩ := lex_raw hlex
  have hempty : Builder.empty.IsFlat none :=
    ⟨by simp [Builder.empty], by simp [Builder.empty], by simp [Builder.empty],
      by simp [Builder.empty, OpensRaw, NoneRaw]⟩
  exact (hempty.foldl hrun).complete

end LocalizedSite.Html
