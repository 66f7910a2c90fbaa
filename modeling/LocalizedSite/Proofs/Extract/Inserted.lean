import LocalizedSite.Proofs.Extract.Opened
import LocalizedSite.Proofs.Extract.Framing

/-!
# Rewritings that only insert

The links to pages, the language switcher and the targets of a redirect get a placeholder by an
insertion. Insertions make a document longer and put no placeholder behind a quote, so they cannot
undo the filling of the head, and a document that filling and inserting together give back was left
alone by each of them.
-/

namespace LocalizedSite.Extract

open Slot

/-- A rewriting leaves the settled documents alone and makes every other longer, and it puts no
placeholder behind a quote. -/
structure InsertsUnless (settled : Text → Prop) (insert : Text → Text) : Prop where
  stays : ∀ html, settled html → insert html = html
  inserts : ∀ html, ¬ settled html → html.length < (insert html).length
  opened_eq : ∀ html, opened (insert html) = opened html

namespace InsertsUnless

variable {settled other : Text → Prop} {insert reinsert fill : Text → Text}

/-- Such a rewriting makes no document shorter. -/
theorem length_le (h : InsertsUnless settled insert) (html : Text) :
    html.length ≤ (insert html).length := by
  by_cases hsettled : settled html
  · rw [h.stays html hsettled]
  · exact (h.inserts html hsettled).le

/-- One rewriting after the other leaves alone what both of them do. -/
theorem comp (hfirst : InsertsUnless settled insert) (hsecond : InsertsUnless other reinsert) :
    InsertsUnless (fun html ↦ settled html ∧ other html) fun html ↦ reinsert (insert html) := by
  refine ⟨fun html h ↦ ?_, fun html h ↦ ?_, fun html ↦ ?_⟩
  · rw [hfirst.stays html h.1, hsecond.stays html h.2]
  · by_cases hsettled : settled html
    · rw [hfirst.stays html hsettled]
      exact hsecond.inserts html fun hother ↦ h ⟨hsettled, hother⟩
    · exact (hfirst.inserts html hsettled).trans_le (hsecond.length_le (insert html))
  · rw [hsecond.opened_eq, hfirst.opened_eq]

/-- A rewriting that inserts a text without quotes at one place of every other document. -/
theorem of_insertion {inserted : Text} (hnonempty : inserted ≠ []) (hunquoted : '"' ∉ inserted)
    (h : ∀ html, settled html ∧ insert html = html ∨ ¬ settled html ∧ ∃ front character back,
      character ≠ '\x7b' ∧ character ≠ '"' ∧ html = front ++ character :: back ∧
        insert html = front ++ character :: (inserted ++ back)) :
    InsertsUnless settled insert := by
  refine ⟨fun html hsettled ↦ ?_, fun html hsettled ↦ ?_, fun html ↦ ?_⟩
  · exact ((h html).resolve_right fun hnot ↦ hnot.1 hsettled).2
  · obtain ⟨-, front, character, back, -, -, hhtml, hinsert⟩ :=
      (h html).resolve_left fun hsame ↦ hsettled hsame.1
    have hlength := List.length_pos_iff.mpr hnonempty
    rw [hinsert, hhtml]
    simp only [List.length_append, List.length_cons]
    omega
  · rcases h html with ⟨-, hsame⟩ | ⟨-, front, character, back, hbrace, hquote, hhtml, hinsert⟩
    · rw [hsame]
    · rw [hinsert, hhtml]
      exact opened_insert front hbrace hquote hunquoted back

/-- Inserting does not undo filling. -/
theorem fill_iff (hinsert : InsertsUnless other insert) (hfill : FillsUnless settled fill)
    (html : Text) : insert (fill html) = html ↔ settled html ∧ other html := by
  constructor
  · intro hsame
    have hopened : opened (fill html) ≤ opened html := by
      rw [← hinsert.opened_eq, hsame]
    have hsettled := hfill.settled_of_le hopened
    refine ⟨hsettled, ?_⟩
    by_contra hother
    have hlength := hinsert.inserts html hother
    rw [hfill.stays html hsettled] at hsame
    rw [hsame] at hlength
    exact absurd hlength (lt_irrefl _)
  · rintro ⟨hsettled, hother⟩
    rw [hfill.stays html hsettled, hinsert.stays html hother]

end InsertsUnless

/-- The placeholder of the locale's path has no quote. -/
theorem unquoted_local_path : '"' ∉ Structural.text .localePath := by
  decide

section Links

/-- No link to a page is left without the placeholder of the locale's path. -/
def LinksSettled (html : Text) : Prop :=
  ∀ slot ∈ (Cuts.all recognizeLink html).occurrences, isPageLink slot.content = false

/-- A link to a page is an insertion behind its first slash. -/
theorem template_link_cases (slot : Slot) :
    isPageLink slot.content = false ∧ templateLink slot = slot.text ∨
      isPageLink slot.content = true ∧ ∃ path, slot.content = '/' :: path ∧ templateLink slot =
        slot.opening ++ '/' :: (Structural.text .localePath ++ (path ++ slot.closing)) := by
  cases hpage : isPageLink slot.content with
  | false => exact .inl ⟨rfl, by simp [templateLink, hpage]⟩
  | true =>
      have hslash : Text.startsWith slot.content ['/'] = true := by
        simp only [isPageLink, Bool.and_eq_true] at hpage
        exact hpage.1.1.1.1
      obtain ⟨path, hpath⟩ := Text.starts_with_iff.mp hslash
      refine .inr ⟨rfl, path, hpath.symm, ?_⟩
      rw [templateLink, if_pos hpage, ← hpath]
      simp [withContent, localizedPath]

/-- A property of documents that stays when the placeholder of the locale's path is inserted behind a
slash stays when it is put into the links. -/
theorem localize_links_keeps {property : Text → Prop}
    (hinsert : ∀ front back, property (front ++ '/' :: back) →
      property (front ++ '/' :: (Structural.text .localePath ++ back)))
    {html : Text} (h : property html) : property (localizeLinks html) := by
  have hlinks := Cuts.all_induction framing_link.consuming
    (motive := fun text cuts ↦ ∀ done, property (done ++ text) →
      property (done ++ cuts.text templateLink))
    (fun text _ done h ↦ by simpa [Cuts.text] using h)
    (fun text before slot rest hfirst ih done h ↦ by
      obtain ⟨rfl, -⟩ := framing_link.first_eq_some hfirst
      have hlink : property (done ++ before ++ templateLink slot ++ rest) := by
        rcases template_link_cases slot with ⟨-, hsame⟩ | ⟨-, path, hcontent, hinserted⟩
        · simpa [hsame] using h
        · have hslash : done ++ (before ++ slot.text ++ rest) =
              (done ++ before ++ slot.opening) ++ '/' :: (path ++ slot.closing ++ rest) := by
            simp [Slot.text_eq, hcontent]
          rw [hslash] at h
          simpa [hinserted] using hinsert _ _ h
      simpa [Cuts.text] using ih (done ++ before ++ templateLink slot) hlink) html
  simpa [localizeLinks] using hlinks [] h

/-- Putting the placeholder of the locale's path into links puts none behind a quote. -/
theorem opened_links (html : Text) : opened (localizeLinks html) = opened html :=
  @localize_links_keeps (fun text ↦ opened text = opened html)
    (fun front back h ↦ (opened_insert front (show '/' ≠ '\x7b' by decide)
      (show '/' ≠ '"' by decide) unquoted_local_path back).trans h) html rfl

/-- Putting the placeholder of the locale's path into links makes a document longer, unless there is
no such link. -/
theorem links_le (html : Text) :
    LinksSettled html ∧ localizeLinks html = html ∨
      ¬ LinksSettled html ∧ html.length < (localizeLinks html).length := by
  refine Cuts.all_induction framing_link.consuming
    (motive := fun html cuts ↦
      (∀ slot ∈ cuts.occurrences, isPageLink slot.content = false) ∧ cuts.text templateLink = html ∨
        ¬ (∀ slot ∈ cuts.occurrences, isPageLink slot.content = false) ∧
          html.length < (cuts.text templateLink).length)
    (fun text _ ↦ .inl ⟨by simp [Cuts.occurrences], by simp [Cuts.text]⟩) ?_ html
  intro text before slot rest hfirst ih
  obtain ⟨rfl, -⟩ := framing_link.first_eq_some hfirst
  have htext : Cuts.text templateLink ⟨(before, slot) :: (Cuts.all recognizeLink rest).found,
      (Cuts.all recognizeLink rest).tail⟩ =
      before ++ templateLink slot ++ (Cuts.all recognizeLink rest).text templateLink := by
    simp [Cuts.text]
  rw [htext]
  simp only [Cuts.occurrences, List.map_cons, List.forall_mem_cons, List.length_append] at ih ⊢
  rcases template_link_cases slot with ⟨hpage, hsame⟩ | ⟨hpage, path, hcontent, hinserted⟩
  · rw [hsame]
    rcases ih with ⟨hothers, hrest⟩ | ⟨hothers, hless⟩
    · exact .inl ⟨⟨hpage, hothers⟩, by rw [hrest]⟩
    · exact .inr ⟨fun hall ↦ hothers hall.2, by omega⟩
  · refine .inr ⟨fun hall ↦ by simp [hpage] at hall, ?_⟩
    have hplaceholder : 0 < (Structural.text .localePath).length := by decide
    have hrest : rest.length ≤ ((Cuts.all recognizeLink rest).text templateLink).length := by
      rcases ih with ⟨-, hsame⟩ | ⟨-, hless⟩
      · rw [hsame]
      · exact hless.le
    simp only [hinserted, Slot.text_eq, hcontent, List.length_append, List.length_cons]
    omega

/-- The links to pages get the placeholder of the locale's path. -/
theorem inserts_links : InsertsUnless LinksSettled localizeLinks := by
  refine ⟨fun html h ↦ ?_, fun html h ↦ ?_, opened_links⟩
  · exact ((links_le html).resolve_right fun hnot ↦ hnot.1 h).2
  · exact ((links_le html).resolve_left fun hsame ↦ h hsame.1).2

end Links

section Switcher

/-- A document with the language switcher where it belongs. -/
def SwitcherSettled (html : Text) : Prop :=
  recognizeNavigation.first? html = none ∨ Text.contains html (Structural.text .langSwitcher) = true

/-- Put the switcher behind the first list of links, unless there is a switcher. -/
def addSwitcher (html : Text) : Text :=
  if Text.contains html (Structural.text .langSwitcher) then html
  else
    match recognizeNavigation.first? html with
    | none => html
    | some (before, slot, rest) => before ++ slot.text ++ switcherLine ++ rest

/-- The switcher is inserted behind the first list of links. -/
theorem inserts_switcher : InsertsUnless SwitcherSettled addSwitcher := by
  refine .of_insertion (show switcherLine ≠ [] by decide) (by decide) fun html ↦ ?_
  cases hcontains : Text.contains html (Structural.text .langSwitcher) with
  | true => exact .inl ⟨.inr hcontains, by simp [addSwitcher, hcontains]⟩
  | false =>
      cases hfirst : recognizeNavigation.first? html with
      | none => exact .inl ⟨.inl hfirst, by simp [addSwitcher, hfirst]⟩
      | some result =>
          obtain ⟨before, slot, rest⟩ := result
          obtain ⟨occurrence, rfl, hread, -⟩ := Recognizer.first_eq_some hfirst
          obtain ⟨-, hclosing, rfl⟩ := between_eq_some hread
          have hlast : slot.closing = "</ul".toList ++ ['>'] := hclosing
          refine .inr ⟨by simp [SwitcherSettled, hfirst, hcontains],
            before ++ slot.opening ++ slot.content ++ "</ul".toList, '>', rest, by decide,
            by decide, ?_, ?_⟩
          · simp [Slot.text_eq, hlast]
          · rw [addSwitcher, if_neg (by simp [hcontains]), hfirst]
            simp [Slot.text_eq, hlast]

end Switcher

section Redirect

/-- Put the placeholder of the locale's path into the target of the first refresh tag. -/
def localizeRefresh (target html : Text) : Text :=
  match (recognizeRefresh target).first? html with
  | none => html
  | some (before, slot, following) => before ++ slot.withContent (localizedPath target) ++ following

/-- A link to a path. -/
def linkTo (path : Text) : Text :=
  "href=\"".toList ++ path ++ ['"']

/-- The parts of a refresh tag, as it is read. -/
theorem recognize_refresh_eq_some {target text rest : Text} {slot : Slot}
    (h : recognizeRefresh target text = some (slot, rest)) :
    text = slot.text ++ rest ∧ slot.content = '/' :: target := by
  simp only [recognizeRefresh, bind, Option.bind_eq_some_iff] at h
  obtain ⟨afterOpening, hopening, h⟩ := h
  rcases hseconds : afterOpening.span Text.isDecimalDigit with ⟨seconds, afterSeconds⟩
  simp only [hseconds] at h
  obtain ⟨afterSemicolon, hsemicolon, h⟩ := h
  rcases hblanks : afterSemicolon.span Text.isBlank with ⟨blanks, afterBlanks⟩
  simp only [hblanks] at h
  obtain ⟨afterUrl, hurl, following, htarget, h⟩ := h
  split at h
  · exact absurd h (by simp)
  · obtain ⟨rfl, rfl⟩ := Prod.mk.inj (Option.some.inj h)
    obtain ⟨hdigits, -⟩ := Text.span_spec hseconds
    obtain ⟨hblank, -⟩ := Text.span_spec hblanks
    rw [Text.after_eq_some.mp hopening, hdigits, Text.after_eq_some.mp hsemicolon, hblank,
      Text.after_eq_some.mp hurl, Text.after_eq_some.mp htarget]
    simp [Slot.text_eq]

/-- The placeholder is inserted into a refresh tag without it. -/
theorem inserts_refresh (target : Text) :
    InsertsUnless (fun html ↦ (recognizeRefresh target).first? html = none)
      (localizeRefresh target) := by
  refine .of_insertion (show Structural.text .localePath ≠ [] by decide) unquoted_local_path
    fun html ↦ ?_
  cases hfirst : (recognizeRefresh target).first? html with
  | none => exact .inl ⟨rfl, by rw [localizeRefresh, hfirst]⟩
  | some result =>
      obtain ⟨before, slot, rest⟩ := result
      obtain ⟨occurrence, rfl, hread, -⟩ := Recognizer.first_eq_some hfirst
      obtain ⟨rfl, hcontent⟩ := recognize_refresh_eq_some hread
      refine .inr ⟨by simp, before ++ slot.opening, '/', target ++ slot.closing ++ rest, by decide,
        by decide, ?_, ?_⟩
      · simp [Slot.text_eq, hcontent]
      · rw [localizeRefresh, hfirst]
        simp [withContent, localizedPath]

/-- The placeholder is inserted into the first link to the target. -/
theorem inserts_target_link (target : Text) :
    InsertsUnless (fun html ↦ Text.contains html (linkTo ('/' :: target)) = false)
      (Text.replaceFirst (linkTo ('/' :: target)) (linkTo (localizedPath target))) := by
  refine .of_insertion (show Structural.text .localePath ≠ [] by decide) unquoted_local_path
    fun html ↦ ?_
  cases hcut : Text.cut? (linkTo ('/' :: target)) html with
  | none =>
      have hcontains : Text.contains html (linkTo ('/' :: target)) = false := by
        rw [Text.contains, hcut, Option.isSome_none]
      exact .inl ⟨hcontains, Text.replace_first_of_none hcut _⟩
  | some parts =>
      obtain ⟨before, rest⟩ := parts
      have hcontains : ¬ Text.contains html (linkTo ('/' :: target)) = false := by
        rw [Text.contains, hcut, Option.isSome_some]
        exact Bool.noConfusion
      have hlink (path : Text) : before ++ linkTo path ++ rest =
          before ++ "href=\"".toList ++ (path ++ '"' :: rest) := by
        simp only [linkTo, List.append_assoc, List.singleton_append]
      refine .inr ⟨hcontains, before ++ "href=\"".toList, '/', target ++ '"' :: rest, by decide,
        by decide, ?_, ?_⟩
      · rw [Text.cut_eq_some hcut, hlink, List.cons_append]
      · rw [Text.replace_first_of_some hcut, hlink, localizedPath]
        simp only [List.cons_append, List.append_assoc]

end Redirect

end LocalizedSite.Extract
