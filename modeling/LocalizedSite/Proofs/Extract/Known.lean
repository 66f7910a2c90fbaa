import LocalizedSite.Proofs.Extract.Restoration
import LocalizedSite.Proofs.Json.Literal

/-!
# Texts with known placeholders only

In a template that extraction makes, a placeholder begins wherever the opening braces stand, and its
reference has a text (`AllKnown`). The property is local: it can be checked on the pieces of a text that
is cut at a quote, a bracket or a space (`is_local_all_known`), so a pass keeps it where it puts
placeholders into framed slots (`IsLocal.rewriting`).
-/

namespace LocalizedSite

namespace Placeholder

/-- A placeholder is structural, or it is a plain reference that is known. -/
def IsKnown (known : Reference → Prop) : Placeholder → Prop
  | .reference found => found.IsPlain ∧ known found
  | .structural _ => True

/-- Wherever the opening braces stand in a text, a known placeholder begins. -/
def AllKnown (known : Reference → Prop) (text : Text) : Prop :=
  ∀ tail, tail <:+ text → openBraces <+: tail →
    ∃ placeholder, IsKnown known placeholder ∧ placeholder.text <+: tail

open Extract

variable {known : Reference → Prop} {text first second : Text}

/-- A text without opening braces has no placeholder to know. -/
theorem all_known_of_literal (h : occursIn text = false) : AllKnown known text := by
  intro tail htail hbraces
  rw [occurs_in_eq_false] at h
  exact absurd (hbraces.isInfix.trans htail.isInfix) h

/-- Knowing less is enough for a text if everything known of it is among that. -/
theorem AllKnown.mono {other : Reference → Prop} (h : AllKnown known text)
    (hknown : ∀ reference, known reference → other reference) : AllKnown other text := by
  intro tail htail hbraces
  obtain ⟨placeholder, hplaceholder, hbegins⟩ := h tail htail hbraces
  refine ⟨placeholder, ?_, hbegins⟩
  cases placeholder with
  | reference found => exact ⟨hplaceholder.1, hknown found hplaceholder.2⟩
  | structural value => trivial

/-- What a text begins with decides, and then the rest. -/
theorem all_known_cons {character : Char} :
    AllKnown known (character :: text) ↔
      (openBraces <+: character :: text →
        ∃ placeholder, IsKnown known placeholder ∧ placeholder.text <+: character :: text) ∧
      AllKnown known text := by
  constructor
  · exact fun h ↦ ⟨h _ List.suffix_rfl,
      fun tail htail ↦ h tail (htail.trans (List.suffix_cons ..))⟩
  · rintro ⟨hfirst, hrest⟩ tail htail
    rcases List.suffix_cons_iff.mp htail with rfl | htail
    · exact hfirst
    · exact hrest tail htail

/-- The end of a text has known placeholders only. -/
theorem AllKnown.back (h : AllKnown known (first ++ second)) : AllKnown known second :=
  fun tail htail ↦ h tail (htail.trans (List.suffix_append ..))

/-- Two texts in a row have known placeholders only, unless a brace is doubled between them. -/
theorem AllKnown.append (hfirst : AllKnown known first) (hsecond : AllKnown known second)
    (hbrace : first.getLast? = some '\x7b' → second.head? ≠ some '\x7b') :
    AllKnown known (first ++ second) := by
  induction first with
  | nil => exact hsecond
  | cons character others ih =>
      obtain ⟨hhere, hrest⟩ := all_known_cons.mp hfirst
      cases others with
      | nil =>
          refine all_known_cons.mpr ⟨fun hbraces ↦ ?_, hsecond⟩
          exact absurd hbraces (not_begins_cons fun heq ↦ hbrace (by simp [heq]))
      | cons next others =>
          refine all_known_cons.mpr ⟨fun hbraces ↦ ?_,
            ih hrest (by simpa [List.getLast?_cons_cons] using hbrace)⟩
          obtain ⟨placeholder, hknown, hbegins⟩ := hhere <| by
            simpa [openBraces, List.cons_prefix_cons] using hbraces
          exact ⟨placeholder, hknown, hbegins.trans (List.prefix_append ..)⟩

/-- Characters other than braces may stand in front. -/
theorem AllKnown.behind_plain (hfirst : '\x7b' ∉ first) (h : AllKnown known second) :
    AllKnown known (first ++ second) := by
  refine (all_known_of_literal (occurs_in_of_not_mem hfirst)).append h fun hlast ↦ ?_
  exact absurd (List.mem_of_getLast? hlast) hfirst

/-- Two texts with characters other than braces between them. -/
theorem AllKnown.join {gap : Text} (hfirst : AllKnown known first) (hgap : '\x7b' ∉ gap)
    (hne : gap ≠ []) (hsecond : AllKnown known second) :
    AllKnown known (first ++ (gap ++ second)) := by
  refine hfirst.append (hsecond.behind_plain hgap) fun _ hhead ↦ ?_
  rw [List.head?_append_of_ne_nil _ hne] at hhead
  exact hgap (List.mem_of_mem_head? hhead)

/-- A known placeholder is all that is known of its own text. -/
theorem all_known_text {placeholder : Placeholder} (h : placeholder.IsKnown known) :
    AllKnown known placeholder.text := by
  have hcase {inner : Text} (htext : placeholder.text = '\x7b' :: '\x7b' :: inner)
      (hinner : '\x7b' ∉ inner) : AllKnown known placeholder.text := by
    have hrest : occursIn ('\x7b' :: inner) = false := by
      rw [occurs_in_cons]
      exact ⟨fun _ hhead ↦ hinner (List.mem_of_mem_head? hhead), occurs_in_of_not_mem hinner⟩
    rw [htext, all_known_cons]
    exact ⟨fun _ ↦ ⟨placeholder, h, by rw [htext]⟩, all_known_of_literal hrest⟩
  cases placeholder with
  | reference found =>
      have hscope : '\x7b' ∉ found.scope := fun hmem ↦
        absurd (h.1.scope_name.2 _ hmem) (by decide)
      have hkey : '\x7b' ∉ found.key := fun hmem ↦ absurd (h.1.key_name.2 _ hmem) (by decide)
      have htext : text (.reference found) =
          '\x7b' :: '\x7b' :: ("t.".toList ++ found.scope ++ '.' :: found.key ++ closeBraces) := by
        simp [text, Reference.text, Reference.mark, openBraces]
      exact hcase htext (by simp [hscope, hkey, closeBraces])
  | structural value =>
      have hinner : '\x7b' ∉ value.name ++ closeBraces := by
        cases value <;> decide
      exact hcase rfl hinner

/-- A written placeholder ends in a brace that does not open one. -/
theorem getLast_text (placeholder : Placeholder) : placeholder.text.getLast? = some '\x7d' := by
  cases placeholder with
  | reference found =>
      show (Reference.mark ++ found.scope ++ '.' :: found.key ++ closeBraces).getLast? = _
      rw [List.getLast?_append]
      rfl
  | structural value => cases value <;> decide

/-- A known placeholder may stand in front. -/
theorem AllKnown.behind {placeholder : Placeholder} (hknown : placeholder.IsKnown known)
    (h : AllKnown known text) : AllKnown known (placeholder.text ++ text) := by
  refine (all_known_text hknown).append h fun hlast ↦ ?_
  rw [getLast_text] at hlast
  exact absurd hlast (by decide)

/-- The references of a text with known placeholders only are known. -/
theorem AllKnown.reference (h : AllKnown known text) {found : Reference}
    (hmem : found ∈ Reference.all text) : known found := by
  refine Cuts.all_induction Reference.consuming_recognize
    (motive := fun text cuts ↦ AllKnown known text → found ∈ cuts.occurrences → known found)
    (fun text _ _ hnone ↦ absurd hnone (by simp [Cuts.occurrences])) ?_ text h hmem
  intro text before first rest hfirst ih h hmem
  obtain ⟨occurrence, rfl, hread, -⟩ := Recognizer.first_eq_some hfirst
  obtain ⟨hwell, rfl⟩ := Reference.recognize_eq_some.mp hread
  rcases List.mem_cons.mp hmem with rfl | hlater
  · obtain ⟨placeholder, hknown, behind, htext⟩ := h.back _ List.suffix_rfl
      (Reference.begins_with_braces found rest)
    cases placeholder with
    | reference other =>
        have hother := Reference.recognize_text hknown.1.is_well_formed behind
        rw [show other.text ++ behind = found.text ++ rest from htext, hread] at hother
        rw [(Prod.mk.inj (Option.some.inj hother)).1]
        exact hknown.2
    | structural value =>
        have hother := Structural.recognize_text value behind
        rw [show value.text ++ behind = found.text ++ rest from htext, Reference.text_eq,
          Structural.recognize_mark] at hother
        exact absurd hother (by simp)
  · exact ih h.back.back hlater

/-- The characters of a known placeholder belong to placeholders, and none is a slash. -/
theorem mem_known_text {placeholder : Placeholder} (h : placeholder.IsKnown known) {character : Char}
    (hmem : character ∈ placeholder.text) : isInside character = true ∧ character ≠ '/' := by
  have hname (hcharacter : Reference.isScopeCharacter character = true) :
      isInside character = true ∧ character ≠ '/' := by
    refine ⟨by simp [isInside, hcharacter], ?_⟩
    rintro rfl
    exact absurd hcharacter (by decide)
  have hfixed {piece : Text} (hpiece : piece.all (fun other ↦ isInside other && other != '/') = true)
      (hmem : character ∈ piece) : isInside character = true ∧ character ≠ '/' := by
    simpa using List.all_eq_true.mp hpiece character hmem
  cases placeholder with
  | reference found =>
      have htext : text (.reference found) =
          Reference.mark ++ (found.scope ++ (['.'] ++ (found.key ++ closeBraces))) := by
        simp [text, Reference.text]
      rw [htext, List.mem_append, List.mem_append, List.mem_append, List.mem_append] at hmem
      rcases hmem with hmem | hmem | hmem | hmem | hmem
      · exact hfixed (show Reference.mark.all _ = true by decide) hmem
      · exact hname (h.1.scope_name.2 character hmem)
      · exact hfixed (show ['.'].all _ = true by decide) hmem
      · exact hname (h.1.key_name.2 character hmem)
      · exact hfixed (show closeBraces.all _ = true by decide) hmem
  | structural value =>
      exact hfixed (show value.text.all _ = true by cases value <;> decide) hmem

/-- The characters of a known placeholder belong to placeholders. -/
theorem inside_of_mem_known {placeholder : Placeholder} (h : placeholder.IsKnown known)
    {character : Char} (hmem : character ∈ placeholder.text) : isInside character = true :=
  (mem_known_text h hmem).1

/-- The beginning of a text up to a boundary has known placeholders only. -/
theorem AllKnown.front (h : AllKnown known (first ++ second)) (hboundary : Boundary first second) :
    AllKnown known first := by
  rintro tail ⟨passed, rfl⟩ hbraces
  have htail : tail ≠ [] := by
    rintro rfl
    exact absurd hbraces (by decide)
  obtain ⟨placeholder, hknown, behind, htext⟩ := h (tail ++ second)
    ⟨passed, by simp⟩ (hbraces.trans (List.prefix_append ..))
  refine ⟨placeholder, hknown, ?_⟩
  have hcut : placeholder.text ++ [] ++ behind = tail ++ second := by simpa using htext
  rcases boundary_token (fun _ ↦ inside_of_mem_known hknown) (.inl rfl)
    (fun _ ↦ hboundary.of_append passed htail) hcut with hnil | ⟨others, hothers, -⟩
  · exact absurd hnil htail
  · exact ⟨others, by simpa using hothers.symm⟩

/-- A piece without some character that a text begins with ends before the character. -/
theorem prefix_of_not_mem {piece : Text} {character : Char} (hpiece : character ∉ piece)
    (h : piece <+: first ++ character :: second) : piece <+: first := by
  rcases List.prefix_or_prefix_of_prefix h (List.prefix_append first _) with hshort | ⟨rest, rfl⟩
  · exact hshort
  · rw [List.prefix_append_right_inj] at h
    cases rest with
    | nil => simp
    | cons found rest =>
        obtain ⟨rfl, -⟩ := List.cons_prefix_cons.mp h
        exact absurd (List.mem_append_right _ (List.mem_cons_self ..)) hpiece

/-- A known placeholder may be inserted behind a slash, which no placeholder has. -/
theorem AllKnown.insert {placeholder : Placeholder} (hknown : placeholder.IsKnown known)
    (h : AllKnown known (first ++ '/' :: second)) :
    AllKnown known (first ++ '/' :: (placeholder.text ++ second)) := by
  induction first with
  | nil =>
      have hsecond := (all_known_cons.mp h).2
      exact all_known_cons.mpr ⟨fun hbraces ↦ absurd hbraces (not_begins_cons (by simp)),
        hsecond.behind hknown⟩
  | cons character first ih =>
      obtain ⟨hhere, hrest⟩ := all_known_cons.mp h
      refine all_known_cons.mpr ⟨fun hbraces ↦ ?_, ih hrest⟩
      have hfront : openBraces <+: character :: first :=
        prefix_of_not_mem (by decide) (show openBraces <+: (character :: first) ++ '/' :: _ from hbraces)
      obtain ⟨found, hfound, hbegins⟩ := hhere (hfront.trans (List.prefix_append (character :: first) _))
      have hslash : '/' ∉ found.text := fun hmem ↦ (mem_known_text hfound hmem).2 rfl
      have hinside : found.text <+: character :: first :=
        prefix_of_not_mem hslash (show found.text <+: (character :: first) ++ '/' :: second from hbegins)
      exact ⟨found, hfound, hinside.trans (List.prefix_append (character :: first) _)⟩

end Placeholder

namespace Extract

open Slot Placeholder Json

/-- Between two texts stands a character that frames contents: at the end of the first or at the
beginning of the second. -/
def IsSeam (first second : Text) : Prop :=
  first.getLast?.any isFrameEnd = true ∨ second.head?.any isFrameStart = true

/-- No placeholder goes across a seam. -/
theorem IsSeam.boundary {first second : Text} (h : IsSeam first second) : Boundary first second :=
  h.elim boundary_of_end boundary_of_start

/-- A property of texts that holds of a text where it holds of the pieces between its seams, whatever
known placeholders the pieces have. -/
structure IsLocal (known : Reference → Prop) (property : Text → Prop) : Prop where
  plain : ∀ {text : Text}, '\x7b' ∉ text → '\\' ∉ text → property text
  behind : ∀ {placeholder : Placeholder} {text : Text}, placeholder.IsKnown known →
    property text → property (placeholder.text ++ text)
  back : ∀ {first second : Text}, property (first ++ second) → property second
  front : ∀ {first second : Text}, IsSeam first second → property (first ++ second) → property first
  append : ∀ {first second : Text}, IsSeam first second → property first → property second →
    property (first ++ second)

variable {known : Reference → Prop} {property other : Text → Prop}

/-- Having known placeholders only is local. -/
theorem is_local_all_known : IsLocal known (AllKnown known) := by
  refine ⟨fun hbrace _ ↦ all_known_of_literal (occurs_in_of_not_mem hbrace), AllKnown.behind,
    AllKnown.back, fun hseam h ↦ h.front hseam.boundary, fun hseam hfirst hsecond ↦ ?_⟩
  refine hfirst.append hsecond fun hlast hhead ↦ ?_
  rcases hseam with hends | hbegins
  · rw [hlast] at hends
    exact absurd hends (by decide)
  · rw [hhead] at hbegins
    exact absurd hbegins (by decide)

/-- No escape by a code unit goes across a seam. -/
theorem IsSeam.escape_cases {first second : Text} (hseam : IsSeam first second)
    (h : unitEscape <:+: first ++ second) : unitEscape <:+: first ∨ unitEscape <:+: second := by
  have hforeign {character : Char} (hframe : isFrameEnd character = true ∨
      isFrameStart character = true) : character ∉ unitEscape := by
    intro hmem
    have hall : unitEscape.all (fun found ↦ !(isFrameEnd found || isFrameStart found)) = true := by
      decide
    have hnone := List.all_eq_true.mp hall character hmem
    rw [Bool.not_eq_true', Bool.or_eq_false_iff] at hnone
    simp [hnone] at hframe
  rcases hseam with hends | hbegins
  · cases hlast : first.getLast? with
    | none => simp [hlast] at hends
    | some character =>
        obtain ⟨front, rfl⟩ := List.getLast?_eq_some_iff.mp hlast
        have hframe : isFrameEnd character = true := by simpa using hends
        rw [List.append_assoc, List.singleton_append,
          Text.infix_append_cons_iff (hforeign (.inl hframe))] at h
        exact h.imp_left fun hfront ↦ hfront.trans (List.prefix_append ..).isInfix
  · cases second with
    | nil => simp at hbegins
    | cons character others =>
        rw [Text.infix_append_cons_iff (hforeign (.inr hbegins))] at h
        exact h.imp_right fun hothers ↦ hothers.trans (List.suffix_cons ..).isInfix

/-- Having no escape by a code unit is local. -/
theorem is_local_no_escape : IsLocal known fun text ↦ ¬ unitEscape <:+: text := by
  refine ⟨fun _ hslash h ↦ hslash (h.subset (List.mem_cons_self ..)), fun hknown htext h ↦ ?_,
    fun htext h ↦ htext (h.trans (List.suffix_append ..).isInfix), fun _ htext h ↦ ?_,
    fun hseam hfirst hsecond h ↦ (hseam.escape_cases h).elim hfirst hsecond⟩
  · refine htext ((Text.infix_append_iff fun hmem ↦ ?_).mp h)
    exact absurd (inside_of_mem_known hknown hmem) (by decide)
  · exact htext (h.trans (List.prefix_append ..).isInfix)

/-- Two local properties together are local. -/
theorem IsLocal.and (h : IsLocal known property) (hother : IsLocal known other) :
    IsLocal known fun text ↦ property text ∧ other text where
  plain hbrace hslash := ⟨h.plain hbrace hslash, hother.plain hbrace hslash⟩
  behind hknown htext := ⟨h.behind hknown htext.1, hother.behind hknown htext.2⟩
  back htext := ⟨h.back htext.1, hother.back htext.2⟩
  front hseam htext := ⟨h.front hseam htext.1, hother.front hseam htext.2⟩
  append hseam hfirst hsecond :=
    ⟨h.append hseam hfirst.1 hsecond.1, hother.append hseam hfirst.2 hsecond.2⟩

/-- The references to all texts of a harvest are known. -/
def Harvest.IsKnown (known : Reference → Prop) (harvest : Harvest) : Prop :=
  ∀ taking ∈ harvest.taken, Placeholder.IsKnown known (.reference (taking.reference harvest.scope))

/-- If the references are known in the end, those to the texts taken before are. -/
theorem Harvest.IsKnown.of_gathers {vocabulary : Vocabulary} {state next : Agenda × Harvest}
    (hgathers : Gathers vocabulary state next) (h : next.2.IsKnown known) : state.2.IsKnown known := by
  intro taking hmem
  rw [← hgathers.scope_eq]
  exact h taking (hgathers.taken_suffix.subset hmem)

namespace IsLocal

/-- A known placeholder has every local property. -/
theorem placeholder (h : IsLocal known property) {found : Placeholder} (hknown : found.IsKnown known) :
    property found.text := by
  simpa using h.behind hknown (h.plain (by simp) (by simp) : property [])

/-- A text with a framed slot has a local property where the pieces around the content and the content
have it. -/
theorem framed_iff (h : IsLocal known property) {slot : Slot} (hframed : slot.Framed)
    {before content after : Text} :
    property (before ++ slot.withContent content ++ after) ↔
      property (before ++ slot.opening) ∧ property content ∧ property (slot.closing ++ after) := by
  have hopening : IsSeam (before ++ slot.opening) (content ++ (slot.closing ++ after)) :=
    .inl (ends_append before hframed.opening_ends)
  have hclosing : IsSeam content (slot.closing ++ after) :=
    .inr (begins_append after hframed.closing_begins)
  have hjoin : before ++ slot.withContent content ++ after =
      (before ++ slot.opening) ++ (content ++ (slot.closing ++ after)) := by
    simp [withContent]
  rw [hjoin]
  constructor
  · intro hwhole
    have hrest := h.back hwhole
    exact ⟨h.front hopening hwhole, h.front hclosing hrest, h.back hrest⟩
  · rintro ⟨hbefore, hcontent, hafter⟩
    exact h.append hopening hbefore (h.append hclosing hcontent hafter)

/-- Other content may be put into a framed slot if it has the property. -/
theorem replace (h : IsLocal known property) {slot : Slot} (hframed : slot.Framed)
    {before content after : Text} (hcontent : property content)
    (hwhole : property (before ++ slot.text ++ after)) :
    property (before ++ slot.withContent content ++ after) := by
  obtain ⟨hbefore, -, hafter⟩ := (h.framed_iff hframed).mp hwhole
  exact (h.framed_iff hframed).mpr ⟨hbefore, hcontent, hafter⟩

/-- One small step of a pass keeps a local property. -/
theorem rewrites {vocabulary : Vocabulary} {state next : Agenda × Draft} (h : IsLocal known property)
    (hstep : Rewrites vocabulary state next) (hknown : next.2.2.IsKnown known)
    (htext : property state.2.1) : property next.2.1 := by
  cases hstep with
  | advance text hstep => exact htext
  | place agenda before after hframed hmem _ hpadding =>
      refine h.replace hframed (h.behind (hknown _ hmem) (h.plain ?_ ?_)) htext
      · rcases hpadding with rfl | rfl <;> simp
      · rcases hpadding with rfl | rfl <;> simp

/-- A sequence of small steps keeps a local property. -/
theorem rewriting {vocabulary : Vocabulary} {state next : Agenda × Draft} (h : IsLocal known property)
    (hsteps : Rewriting vocabulary state next) (hknown : next.2.2.IsKnown known)
    (htext : property state.2.1) : property next.2.1 := by
  induction hsteps with
  | refl => exact htext
  | @tail middle next hsteps hstep ih =>
      have hgathers := Rewriting.gathers (Relation.ReflTransGen.single hstep)
      exact h.rewrites hstep hknown (ih (hknown.of_gathers hgathers))

/-- Rewriting the slots between two literals one by one turns one local property into another, if it
does so with their contents. `good` is what the states must fulfil, and they do so from the end on. -/
theorem rewrite_cuts {σ : Type} {opening closing : Text} {step : σ → Slot → Text × σ}
    (h : IsLocal known property) (hother : IsLocal known other)
    (himp : ∀ text, property text → other text) (hopening : opening.getLast?.any isFrameEnd = true)
    (hbegins : closing.head?.any isFrameStart = true) (hends : closing.getLast?.any isFrameEnd = true)
    (good : σ → Prop) (hgood : ∀ state slot, good (step state slot).2 → good state)
    (hstep : ∀ state slot, good (step state slot).2 → property slot.content →
      ∃ content behind, (step state slot).1 = slot.withContent content ++ behind ∧ other content ∧
        ∀ rest, other rest → other (behind ++ rest))
    {state : σ} {text : Text}
    (hfinal : good ((Cuts.all (between opening closing) text).rewrite step state).2)
    (htext : property text) :
    other ((Cuts.all (between opening closing) text).rewrite step state).1 := by
  have hframing : Framing (between opening closing) := framing_between hopening hbegins
  have hcuts := Cuts.all_induction hframing.consuming
    (motive := fun text cuts ↦ ∀ state, good (cuts.rewrite step state).2 →
      good state ∧ (property text → other (cuts.rewrite step state).1))
    (fun text _ state hfinal ↦ ⟨hfinal, himp text⟩) ?_ text
  · exact (hcuts state hfinal).2 htext
  intro text before slot rest hfirst ih state hfinal
  rw [Cuts.rewrite_cons] at hfinal ⊢
  obtain ⟨hnext, hrest⟩ := ih (step state slot).2 hfinal
  refine ⟨hgood state slot hnext, fun htext ↦ ?_⟩
  obtain ⟨occurrence, rfl, hread, -⟩ := Recognizer.first_eq_some hfirst
  obtain ⟨-, hframed⟩ := hframing _ _ _ hread
  obtain ⟨-, hclosing, rfl⟩ := between_eq_some hread
  have hsplit : property (before ++ slot.withContent slot.content ++ rest) := by
    simpa [Slot.text] using htext
  obtain ⟨hbefore, hcontent, hafter⟩ := (h.framed_iff hframed).mp hsplit
  obtain ⟨content, behind, hwritten, hnew, hbehind⟩ := hstep state slot hnext hcontent
  have hseam (later : Text) : IsSeam slot.closing later := .inl (by rw [hclosing]; exact hends)
  have hlater := hbehind _ (hrest (h.back hafter))
  have hclosed := hother.append (hseam _) (himp _ (h.front (hseam _) hafter)) hlater
  simpa [hwritten] using (hother.framed_iff hframed).mpr ⟨himp _ hbefore, hnew, hclosed⟩

end IsLocal

end Extract

end LocalizedSite
