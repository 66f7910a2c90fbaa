import LocalizedSite.Proofs.Extract.Rewriting
import LocalizedSite.Proofs.Placeholder
import LocalizedSite.Render.Page

/-!
# What a template restores

`Restores` relates a template to the text that it was made from: characters stay, a reference stands
for a piece of the text, and a path of the site may have the placeholder of the locale's path in
front. Where the two are cut at a character that no placeholder has, both parts are related again
(`Restores.split`), so a pass that replaces the content of a framed slot keeps the relation
(`Restores.rewriting`).
-/

namespace LocalizedSite

namespace Extract

open Slot

/-- A template and the text that it was made from: `known` tells which text a reference stands for,
and `front` is what stands in front of the paths of the site. -/
inductive Restores (known : Reference → Text → Prop) (front : Text) : Text → Text → Prop
  | nil : Restores known front [] []
  /-- A character stays, and no brace is doubled. -/
  | character {template original : Text} (character : Char)
      (hbrace : character = '\x7b' → template.head? ≠ some '\x7b')
      (h : Restores known front template original) :
      Restores known front (character :: template) (character :: original)
  /-- A reference stands for a piece that is its text up to blanks. -/
  | reference {reference : Reference} {text piece padding template original : Text}
      (hplain : reference.IsPlain) (hknown : known reference text)
      (hpiece : Text.withoutBlanks piece = Text.withoutBlanks text)
      (hpadding : padding = [] ∨ padding = [' '])
      (h : Restores known front template original) :
      Restores known front (reference.text ++ padding ++ template) (piece ++ original)
  /-- The path of the site gets the front. -/
  | path {template original : Text} (h : Restores known front template original) :
      Restores known front ('/' :: front ++ template) ('/' :: original)

/-- A character that a plain placeholder may have. -/
def isInside (character : Char) : Bool :=
  Reference.isScopeCharacter character || "\x7b\x7d./".toList.contains character

/-- Between two texts no placeholder is cut through, since the last character of the first or the
first character of the second belongs to none. -/
def Boundary (first second : Text) : Prop :=
  (∃ character, first.getLast? = some character ∧ isInside character = false) ∨
    ∃ character, second.head? = some character ∧ isInside character = false ∧ character ≠ ' '

/-- What stands further in front does not matter for a boundary. -/
theorem Boundary.of_append (front : Text) {first second : Text}
    (h : Boundary (front ++ first) second) (hne : first ≠ []) : Boundary first second := by
  simpa [Boundary, List.getLast?_append, List.getLast?_eq_some_getLast hne] using h

/-- The opening of a slot is a boundary. -/
theorem boundary_of_end {first second : Text} (h : first.getLast?.any isFrameEnd = true) :
    Boundary first second := by
  cases hlast : first.getLast? with
  | none => simp [hlast] at h
  | some character =>
      have hend : isFrameEnd character = true := by simpa [hlast] using h
      refine .inl ⟨character, hlast, ?_⟩
      simp only [isFrameEnd, Bool.or_eq_true, beq_iff_eq] at hend
      rcases hend with (rfl | rfl) | rfl <;> decide

/-- The closing of a slot is a boundary. -/
theorem boundary_of_start {first second : Text} (h : second.head?.any isFrameStart = true) :
    Boundary first second := by
  cases hhead : second.head? with
  | none => simp [hhead] at h
  | some character =>
      have hstart : isFrameStart character = true := by simpa [hhead] using h
      refine .inr ⟨character, hhead, ?_⟩
      simp only [isFrameStart, Bool.or_eq_true, beq_iff_eq] at hstart
      rcases hstart with rfl | rfl <;> decide

/-- The characters of a plain reference belong to placeholders. -/
theorem inside_of_mem_text {reference : Reference} (h : reference.IsPlain) {character : Char}
    (hmem : character ∈ reference.text) : isInside character = true := by
  have hplain : ∀ other, Reference.isScopeCharacter other = true → isInside other = true := by
    simp +contextual [isInside]
  have hmark : ∀ other ∈ Reference.mark, isInside other = true := List.all_eq_true.mp (by decide)
  have hclose : ∀ other ∈ '.' :: closeBraces, isInside other = true :=
    List.all_eq_true.mp (by decide)
  simp only [Reference.text, List.mem_append, List.mem_cons] at hmem
  rcases hmem with ((hmem | hmem) | rfl | hmem) | hmem
  · exact hmark _ hmem
  · exact hplain _ (h.scope_name.2 _ hmem)
  · decide
  · exact hplain _ (h.key_name.2 _ hmem)
  · exact hclose _ (List.mem_cons_of_mem _ hmem)

/-- A boundary does not cut through a token, nor between the token and its padding. -/
theorem boundary_token {token padding rest first second : Text}
    (htoken : ∀ character ∈ token, isInside character = true)
    (hpadding : padding = [] ∨ padding = [' ']) (hboundary : first ≠ [] → Boundary first second)
    (h : token ++ padding ++ rest = first ++ second) :
    first = [] ∨ ∃ others, first = token ++ padding ++ others ∧ rest = others ++ second := by
  by_cases hfirst : first = []
  · exact .inl hfirst
  · rcases List.append_eq_append_iff.mp h with ⟨others, hothers, hrest⟩ | ⟨cut, hcut, hsecond⟩
    · exact .inr ⟨others, hothers, hrest⟩
    · cases cut with
      | nil => exact .inr ⟨[], by simpa using hcut.symm, by simpa using hsecond.symm⟩
      | cons character cut =>
          -- the cut is inside the token or between it and its padding, so it is no boundary
          exfalso
          have hsubset : ∀ other ∈ first, other ∈ token := by
            rcases List.append_eq_append_iff.mp hcut with ⟨others, rfl, hpad⟩ | ⟨others, rfl, -⟩
            · rcases hpadding with rfl | rfl
              · exact absurd hpad (by simp)
              · obtain rfl : others = [] := by
                  cases others with
                  | nil => rfl
                  | cons other others => simp at hpad
                simp
            · exact fun other hmem ↦ List.mem_append_left _ hmem
          rcases hboundary hfirst with ⟨last, hlast, hinside⟩ | ⟨head, hhead, hinside, hspace⟩
          · have hmem := hsubset last (List.mem_of_getLast? hlast)
            simp [htoken last hmem] at hinside
          · obtain rfl : character = head := by simpa [hsecond] using hhead
            have hmem : character ∈ token ++ padding := by simp [hcut]
            rcases List.mem_append.mp hmem with hmem | hmem
            · simp [htoken character hmem] at hinside
            · rcases hpadding with rfl | rfl
              · simp at hmem
              · exact hspace (by simpa using hmem)

namespace Restores

variable {known : Reference → Text → Prop} {front template original : Text}

/-- A text without placeholders restores itself. -/
theorem self (h : Placeholder.occursIn original = false) :
    Restores known front original original := by
  induction original with
  | nil => exact .nil
  | cons character original ih =>
      obtain ⟨hbrace, hrest⟩ := Placeholder.occurs_in_cons.mp h
      exact .character character hbrace (ih hrest)

/-- Related texts are put together, unless a brace is doubled. -/
theorem append {first second firstOriginal secondOriginal : Text}
    (hfirst : Restores known front first firstOriginal)
    (hsecond : Restores known front second secondOriginal)
    (hbrace : first.getLast? = some '\x7b' → second.head? ≠ some '\x7b') :
    Restores known front (first ++ second) (firstOriginal ++ secondOriginal) := by
  induction hfirst with
  | nil => exact hsecond
  | @character template original character hcharacter _ ih =>
      cases template with
      | nil =>
          refine .character character (fun heq ↦ ?_) (ih (by simp))
          simpa using hbrace (by simp [heq])
      | cons next template =>
          exact .character character (by simpa using hcharacter)
            (ih (by simpa [List.getLast?_cons_cons] using hbrace))
  | @reference reference text piece padding template original hplain hknown hpiece hpadding _ ih =>
      have hrest := ih (fun hlast ↦ hbrace (by simp [List.getLast?_append, hlast]))
      simpa using Restores.reference hplain hknown hpiece hpadding hrest
  | @path template original _ ih =>
      have hrest := ih (fun hlast ↦ hbrace (by
        rw [List.getLast?_append, hlast]
        rfl))
      simpa using Restores.path hrest

/-- What stands in front of a path is the placeholder of the locale's path, or nothing. -/
def IsFront (front : Text) : Prop :=
  front = Structural.text .localePath ∨ front = []

/-- A path with its front belongs to a placeholder up to there. -/
theorem IsFront.inside (h : IsFront front) :
    ∀ character ∈ '/' :: front, isInside character = true := by
  refine List.all_eq_true.mp ?_
  rcases h with rfl | rfl
  · decide
  · decide

/-- Where the template is cut at a boundary, the text is cut as well. -/
theorem split (hfront : IsFront front) {first second : Text}
    (h : Restores known front (first ++ second) original)
    (hboundary : first ≠ [] → Boundary first second) :
    ∃ firstOriginal secondOriginal, original = firstOriginal ++ secondOriginal ∧
      Restores known front first firstOriginal ∧ Restores known front second secondOriginal := by
  generalize htemplate : first ++ second = template at h
  induction h generalizing first with
  | nil =>
      obtain ⟨rfl, rfl⟩ := List.append_eq_nil_iff.mp htemplate
      exact ⟨[], [], rfl, .nil, .nil⟩
  | @character template original character hbrace hrest ih =>
      cases first with
      | nil =>
          obtain rfl : second = character :: template := htemplate
          exact ⟨[], _, rfl, .nil, .character character hbrace hrest⟩
      | cons other first =>
          obtain ⟨rfl, rfl⟩ := List.cons.inj htemplate
          have hothers (hne : first ≠ []) : Boundary first second :=
            .of_append [other] (hboundary (by simp)) hne
          obtain ⟨firstOriginal, secondOriginal, rfl, hfirst, hsecond⟩ := ih hothers rfl
          refine ⟨other :: firstOriginal, secondOriginal, rfl, ?_, hsecond⟩
          refine .character other (fun heq ↦ ?_) hfirst
          cases first with
          | nil => simp
          | cons next first => simpa using hbrace heq
  | @reference reference text piece padding template original hplain hknown hpiece hpadding hrest ih =>
      rcases boundary_token (fun _ ↦ inside_of_mem_text hplain) hpadding hboundary
        htemplate.symm with rfl | ⟨others, rfl, rfl⟩
      · obtain rfl : second = reference.text ++ padding ++ template := htemplate
        exact ⟨[], _, rfl, .nil, .reference hplain hknown hpiece hpadding hrest⟩
      · obtain ⟨firstOriginal, secondOriginal, rfl, hfirst, hsecond⟩ :=
          ih (fun hne ↦ .of_append _ (hboundary (by simp [hne])) hne) rfl
        exact ⟨piece ++ firstOriginal, secondOriginal, by simp,
          .reference hplain hknown hpiece hpadding hfirst, hsecond⟩
  | @path template original hrest ih =>
      rcases boundary_token hfront.inside (.inl rfl) hboundary (by simpa using htemplate.symm)
        with rfl | ⟨others, hothers, rfl⟩
      · obtain rfl : second = '/' :: front ++ template := htemplate
        exact ⟨[], _, rfl, .nil, .path hrest⟩
      · obtain rfl : first = '/' :: front ++ others := by simpa using hothers
        obtain ⟨firstOriginal, secondOriginal, rfl, hfirst, hsecond⟩ :=
          ih (fun hne ↦ .of_append _ (hboundary (by simp)) hne) rfl
        exact ⟨'/' :: firstOriginal, secondOriginal, by simp, .path hfirst, hsecond⟩

/-- A template without placeholders is the text itself. -/
theorem eq_of_literal (hfront : IsFront front) (h : Restores known front template original)
    (hliteral : Placeholder.occursIn template = false) : original = template := by
  induction h with
  | nil => rfl
  | character character hbrace _ ih => rw [ih (Placeholder.occurs_in_cons.mp hliteral).2]
  | @reference reference text piece padding template original _ _ _ _ _ _ =>
      rw [Placeholder.occurs_in_eq_false] at hliteral
      rw [List.append_assoc] at hliteral
      exact absurd (reference.begins_with_braces _).isInfix hliteral
  | @path template original _ ih =>
      rcases hfront with rfl | rfl
      · have hbraces : Placeholder.occursIn ('/' :: Structural.text .localePath) = true := by decide
        rw [Placeholder.occurs_in_of_piece (List.prefix_append ..).isInfix hliteral] at hbraces
        exact absurd hbraces (by simp)
      · rw [ih (Placeholder.occurs_in_cons.mp hliteral).2]
        rfl

/-- Other content of a framed slot restores the text if it restores what the content did. -/
theorem replace (hfront : IsFront front) {slot : Slot} (hframed : slot.Framed)
    {before after content : Text}
    (hcontent : ∀ piece, Restores known front slot.content piece →
      Restores known front content piece)
    (h : Restores known front (before ++ slot.text ++ after) original) :
    Restores known front (before ++ slot.withContent content ++ after) original := by
  have hends : (before ++ slot.opening).getLast?.any isFrameEnd = true :=
    ends_append before hframed.opening_ends
  have hbegins : (slot.closing ++ after).head?.any isFrameStart = true :=
    begins_append after hframed.closing_begins
  have hsplit : before ++ slot.text ++ after =
      (before ++ slot.opening) ++ (slot.content ++ (slot.closing ++ after)) := by
    simp [Slot.text_eq]
  rw [hsplit] at h
  obtain ⟨frontOriginal, rest, rfl, hopening, hrest⟩ :=
    split hfront h fun _ ↦ boundary_of_end hends
  obtain ⟨piece, backOriginal, rfl, hmiddle, hclosing⟩ :=
    split hfront hrest fun _ ↦ boundary_of_start hbegins
  have hjoin : before ++ slot.withContent content ++ after =
      (before ++ slot.opening) ++ (content ++ (slot.closing ++ after)) := by
    simp [withContent]
  rw [hjoin]
  refine hopening.append ((hcontent piece hmiddle).append hclosing fun _ ↦ ?_) fun hlast ↦ ?_
  · intro hhead
    rw [hhead] at hbegins
    exact absurd hbegins (by decide)
  · rw [hlast] at hends
    exact absurd hends (by decide)

end Restores

/-- The text that a reference stands for is known to be the one that was taken, and it is a text
without placeholders. -/
structure Taking.Known (known : Reference → Text → Prop) (scope : Text) (taking : Taking) :
    Prop where
  literal : Placeholder.occursIn taking.text = false
  plain : (taking.reference scope).IsPlain
  known : known (taking.reference scope) taking.text

namespace Restores

variable {known : Reference → Text → Prop} {front original : Text} {vocabulary : Vocabulary}

/-- The reference to a taken text restores the content it was taken from. -/
theorem of_taking (hfront : IsFront front) {scope content piece padding : Text} {taking : Taking}
    (hknown : taking.Known known scope)
    (htext : taking.text = content ∨ taking.text = Text.trim content)
    (hpadding : padding = [] ∨ padding = [' ']) (h : Restores known front content piece) :
    Restores known front ((taking.reference scope).text ++ padding) piece := by
  have hliteral : Placeholder.occursIn content = false := by
    have htaken := hknown.literal
    rcases htext with heq | heq
    · rwa [heq] at htaken
    · rw [heq] at htaken
      exact Placeholder.occurs_in_of_trim htaken
  obtain rfl := h.eq_of_literal hfront hliteral
  have hblanks : Text.withoutBlanks piece = Text.withoutBlanks taking.text := by
    rcases htext with heq | heq <;> simp [heq]
  simpa using Restores.reference hknown.plain hknown.known hblanks hpadding Restores.nil

/-- One small step of a pass keeps what the template restores. -/
theorem rewrites (hfront : IsFront front) {state next : Agenda × Draft}
    (hstep : Rewrites vocabulary state next)
    (hknown : ∀ taking ∈ next.2.2.taken, taking.Known known next.2.2.scope)
    (h : Restores known front state.2.1 original) : Restores known front next.2.1 original := by
  cases hstep with
  | advance text hstep => exact h
  | place agenda before after hframed hmem htext hpadding =>
      exact h.replace hfront hframed fun piece hpiece ↦
        hpiece.of_taking hfront (hknown _ hmem) htext hpadding

/-- A sequence of small steps keeps what the template restores. -/
theorem rewriting (hfront : IsFront front) {state next : Agenda × Draft}
    (hsteps : Rewriting vocabulary state next)
    (hknown : ∀ taking ∈ next.2.2.taken, taking.Known known next.2.2.scope)
    (h : Restores known front state.2.1 original) : Restores known front next.2.1 original := by
  induction hsteps with
  | refl => exact h
  | @tail middle next hsteps hstep ih =>
      have hgathers := Rewriting.gathers (Relation.ReflTransGen.single hstep)
      refine rewrites hfront hstep hknown (ih fun taking hmem ↦ ?_)
      rw [← hgathers.scope_eq]
      exact hknown taking (hgathers.taken_suffix.subset hmem)

/-- Putting the placeholder of the locale's path into the links keeps what the template restores. -/
theorem localize_links {template : Text}
    (h : Restores known (Structural.text .localePath) template original) :
    Restores known (Structural.text .localePath) (localizeLinks template) original := by
  have hfront : IsFront (Structural.text .localePath) := .inl rfl
  have hlink (slot : Slot) (hframed : slot.Framed) (before after : Text)
      (h : Restores known (Structural.text .localePath) (before ++ slot.text ++ after) original) :
      Restores known (Structural.text .localePath) (before ++ templateLink slot ++ after)
        original := by
    simp only [templateLink]
    split
    · next hpage =>
        refine h.replace hfront hframed fun piece hpiece ↦ ?_
        simp only [isPageLink, Bool.and_eq_true, Bool.not_eq_true'] at hpage
        obtain ⟨⟨⟨⟨hslash, -⟩, hliteral⟩, -⟩, -⟩ := hpage
        obtain rfl := hpiece.eq_of_literal hfront hliteral
        obtain ⟨path, hpath⟩ := Text.starts_with_iff.mp hslash
        rw [← hpath] at hliteral ⊢
        exact .path (.self (Placeholder.occurs_in_cons.mp hliteral).2)
    · exact h
  have hlinks := Cuts.all_induction framing_link.consuming
    (motive := fun text cuts ↦ ∀ before,
      Restores known (Structural.text .localePath) (before ++ text) original →
        Restores known (Structural.text .localePath) (before ++ cuts.text templateLink) original)
    (fun text _ before h ↦ by simpa [Cuts.text] using h)
    (fun text before slot rest hfirst ih done h ↦ by
      obtain ⟨rfl, hframed⟩ := framing_link.first_eq_some hfirst
      have hwritten := ih _ (hlink slot hframed (done ++ before) rest (by simpa using h))
      simpa [Cuts.text] using hwritten) template
  simpa [localizeLinks] using hlinks [] h

/-- A tag without placeholders that stands in the template stands in the text. -/
theorem tag (hfront : IsFront front) {before tag after : Text}
    (hbegins : tag.head?.any isFrameStart = true) (hends : tag.getLast?.any isFrameEnd = true)
    (hliteral : Placeholder.occursIn tag = false)
    (h : Restores known front (before ++ (tag ++ after)) original) :
    ∃ beforeOriginal afterOriginal, original = beforeOriginal ++ (tag ++ afterOriginal) ∧
      Restores known front after afterOriginal := by
  obtain ⟨beforeOriginal, rest, rfl, -, hrest⟩ :=
    split hfront h fun _ ↦ boundary_of_start (begins_append after hbegins)
  obtain ⟨piece, afterOriginal, rfl, hpiece, hafter⟩ :=
    split hfront hrest fun _ ↦ boundary_of_end hends
  obtain rfl := hpiece.eq_of_literal hfront hliteral
  exact ⟨beforeOriginal, afterOriginal, rfl, hafter⟩

/-- A block of linked data in the template comes from one in the text. -/
theorem linked_data_eq_none (hfront : IsFront front) {template : Text}
    (h : Restores known front template original)
    (hnone : recognizeLinkedData.first? original = none) :
    recognizeLinkedData.first? template = none := by
  cases hfirst : recognizeLinkedData.first? template with
  | none => rfl
  | some result =>
      exfalso
      obtain ⟨before, slot, rest⟩ := result
      obtain ⟨occurrence, rfl, hread, -⟩ := Recognizer.first_eq_some hfirst
      obtain ⟨hopening, hclosing, rfl⟩ := between_eq_some hread
      rw [Slot.text_eq, hopening, hclosing, List.append_assoc, List.append_assoc] at h
      obtain ⟨front, inside, rfl, hinside⟩ := h.tag hfront (by decide) (by decide) (by decide)
      obtain ⟨content, behind, rfl, -⟩ := hinside.tag hfront (by decide) (by decide) (by decide)
      have hread := Recognizer.eq_none_of_first_eq_none hnone (by simp)
      exact between_ne_none _ _ content behind hread

end Restores

end Extract

end LocalizedSite
