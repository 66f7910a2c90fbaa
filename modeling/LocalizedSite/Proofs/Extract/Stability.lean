import LocalizedSite.Proofs.Extract.Inserted
import LocalizedSite.Proofs.Extract.Run
import LocalizedSite.Proofs.Extract.Settled

/-!
# When extraction changes nothing

`extract_stable_iff` says exactly which documents an extraction gives back as they are, without any
text: those in which no pass finds a slot to rewrite. A pass that takes no text leaves its document
alone, and the passes that take none at all fill or insert, so that none of them undoes another.
-/

namespace LocalizedSite.Extract

open Slot Harvest

section Navigation

/-- No label of a list of links is left to share. -/
def NavigationSettled (labels : Entries Text) (html : Text) : Prop :=
  ∀ slot ∈ (Cuts.all recognizeNavigation html).occurrences, LabelsSettled labels slot.content

/-- One list of links is kept, with the switcher behind it if that is wanted, or a label is
shared. -/
theorem rewrite_navigation_le (labels : Entries Text) (state : Bool × Harvest) (slot : Slot) :
    LabelsSettled labels slot.content ∧ rewriteNavigation labels state slot =
        (if state.1 then slot.text ++ switcherLine else slot.text, false, state.2) ∨
      ¬ LabelsSettled labels slot.content ∧
        state.2.taken.length < (rewriteNavigation labels state slot).2.2.taken.length := by
  by_cases hsettled : LabelsSettled labels slot.content
  · have hsame := (share_link_labels_leaves labels).leaves slot.content hsettled state.2
    refine .inl ⟨hsettled, ?_⟩
    unfold rewriteNavigation
    rw [hsame]
    rfl
  · exact .inr ⟨hsettled, (share_link_labels_leaves labels).takes state.2 slot.content hsettled⟩

/-- Rewriting the lists of links of a cut document gives a text and shares nothing if their labels are
settled, and shares a label otherwise. -/
def SharesUnlessSettled (labels : Entries Text) (cuts : Cuts Slot) (wanted : Bool) (kept : Text) : Prop :=
  ∀ harvest : Harvest,
    (∀ slot ∈ cuts.occurrences, LabelsSettled labels slot.content) ∧
        cuts.rewrite (rewriteNavigation labels) (wanted, harvest) = (kept, false, harvest) ∨
      ¬ (∀ slot ∈ cuts.occurrences, LabelsSettled labels slot.content) ∧ harvest.taken.length <
        (cuts.rewrite (rewriteNavigation labels) (wanted, harvest)).2.2.taken.length

/-- The first list of links gets the switcher if it is wanted, and the others get none. -/
theorem SharesUnlessSettled.cons {labels : Entries Text} {cuts : Cuts Slot} {kept : Text}
    (h : SharesUnlessSettled labels cuts false kept) (before : Text) (slot : Slot) (wanted : Bool) :
    SharesUnlessSettled labels ⟨(before, slot) :: cuts.found, cuts.tail⟩ wanted
      (before ++ (if wanted then slot.text ++ switcherLine else slot.text) ++ kept) := by
  intro harvest
  rw [Cuts.rewrite_cons]
  simp only [Cuts.occurrences, List.map_cons, List.forall_mem_cons]
  have hrest := h (rewriteNavigation labels (wanted, harvest) slot).2.2
  have hwanted : (rewriteNavigation labels (wanted, harvest) slot).2 =
      (false, (rewriteNavigation labels (wanted, harvest) slot).2.2) := rfl
  rw [hwanted]
  rcases rewrite_navigation_le labels (wanted, harvest) slot with ⟨hsettled, hslot⟩ | ⟨hshared, hless⟩
  · rw [hslot] at hrest ⊢
    rcases hrest with ⟨hothers, hsame⟩ | ⟨hothers, hmore⟩
    · exact .inl ⟨⟨hsettled, hothers⟩, by rw [hsame]⟩
    · exact .inr ⟨fun hall ↦ hothers hall.2, hmore⟩
  · refine .inr ⟨fun hall ↦ hshared hall.1, ?_⟩
    rcases hrest with ⟨-, hsame⟩ | ⟨-, hmore⟩
    · rw [hsame]
      exact hless
    · exact Nat.lt_trans hless hmore

/-- Once no switcher is wanted, lists of links are kept or a label is shared. -/
theorem rewrite_navigations_le (labels : Entries Text) (html : Text) :
    SharesUnlessSettled labels (Cuts.all recognizeNavigation html) false html := by
  refine Cuts.all_induction framing_navigation.consuming
    (motive := fun html cuts ↦ SharesUnlessSettled labels cuts false html)
    (fun text _ harvest ↦ .inl ⟨by simp [Cuts.occurrences], rfl⟩) ?_ html
  intro text before slot rest hfirst ih
  obtain ⟨rfl, -⟩ := framing_navigation.first_eq_some hfirst
  simpa using ih.cons before slot false

/-- Navigation adds the switcher where it is wanted, or shares a label. -/
theorem navigation_le (labels : Entries Text) (harvest : Harvest) (html : Text) :
    NavigationSettled labels html ∧ navigation labels harvest html = (addSwitcher html, harvest) ∨
      ¬ NavigationSettled labels html ∧
        harvest.taken.length < (navigation labels harvest html).2.taken.length := by
  cases hcontains : Text.contains html (Structural.text .langSwitcher) with
  | true =>
      rcases rewrite_navigations_le labels html harvest with ⟨hsettled, hsame⟩ | ⟨hshared, hless⟩
      · exact .inl ⟨hsettled, by simp [navigation, addSwitcher, hcontains, hsame]⟩
      · exact .inr ⟨hshared, by simpa [navigation, hcontains] using hless⟩
  | false =>
      cases hfirst : recognizeNavigation.first? html with
      | none =>
          have hall := Cuts.all_of_first_none hfirst
          refine .inl ⟨?_, ?_⟩
          · intro other hmem
            rw [hall] at hmem
            exact absurd hmem List.not_mem_nil
          · unfold navigation addSwitcher
            rw [hall, hcontains, hfirst]
            rfl
      | some result =>
          obtain ⟨before, slot, rest⟩ := result
          have hall := Cuts.all_of_first_some framing_navigation.consuming hfirst
          have hadded : addSwitcher html = before ++ (slot.text ++ switcherLine) ++ rest := by
            unfold addSwitcher
            rw [hcontains, hfirst]
            simp
          have hwhole := (rewrite_navigations_le labels rest).cons before slot true
          rw [← hall] at hwhole
          rcases hwhole harvest with ⟨hsettled, hsame⟩ | ⟨hshared, hless⟩
          · exact .inl ⟨hsettled, by simp [navigation, hcontains, hsame, hadded]⟩
          · exact .inr ⟨hshared, by simpa [navigation, hcontains] using hless⟩

end Navigation

section LinkedData

/-- Rewriting one block keeps it, or takes a text from it. -/
theorem rewrite_block_le (scope : Text) (scan : BlockScan) (slot : Slot) :
    (rewriteBlock scope scan slot).1 = slot.text ∧
        (rewriteBlock scope scan slot).2.taken = scan.taken ∨
      scan.taken.length < (rewriteBlock scope scan slot).2.taken.length := by
  simp only [rewriteBlock]
  split
  · exact .inl ⟨rfl, rfl⟩
  · split
    · exact .inl ⟨rfl, rfl⟩
    · next hnonempty =>
        refine .inr ?_
        simp only [List.length_append, List.length_reverse]
        have hpositive := List.length_pos_iff.mpr (mt List.isEmpty_iff.mpr hnonempty)
        omega

/-- A scan of structured data that takes nothing keeps the document. -/
theorem scan_linked_data_eq (scope html : Text) (h : (scanLinkedData scope html).2 = []) :
    (scanLinkedData scope html).1 = html := by
  have hcuts : ∀ scan : BlockScan,
      scan.taken.length ≤
          ((Cuts.all recognizeLinkedData html).rewrite (rewriteBlock scope) scan).2.taken.length ∧
        (((Cuts.all recognizeLinkedData html).rewrite (rewriteBlock scope) scan).2.taken.length ≤
            scan.taken.length →
          ((Cuts.all recognizeLinkedData html).rewrite (rewriteBlock scope) scan).1 = html) := by
    refine Cuts.all_induction framing_linked_data.consuming
      (motive := fun html cuts ↦ ∀ scan : BlockScan,
        scan.taken.length ≤ (cuts.rewrite (rewriteBlock scope) scan).2.taken.length ∧
          ((cuts.rewrite (rewriteBlock scope) scan).2.taken.length ≤ scan.taken.length →
            (cuts.rewrite (rewriteBlock scope) scan).1 = html))
      (fun text _ scan ↦ ⟨le_refl _, fun _ ↦ rfl⟩) ?_ html
    intro text before slot rest hfirst ih scan
    obtain ⟨rfl, -⟩ := framing_linked_data.first_eq_some hfirst
    rw [Cuts.rewrite_cons]
    obtain ⟨hmore, hsame⟩ := ih (rewriteBlock scope scan slot).2
    rcases rewrite_block_le scope scan slot with ⟨hslot, htaken⟩ | hless
    · rw [htaken] at hmore hsame
      refine ⟨hmore, fun hnothing ↦ ?_⟩
      show before ++ (rewriteBlock scope scan slot).1 ++ _ = _
      rw [hslot, hsame hnothing]
    · exact ⟨hless.le.trans hmore, fun hnothing ↦ absurd (hless.trans_le hmore) hnothing.not_gt⟩
  have hnothing : ((Cuts.all recognizeLinkedData html).rewrite (rewriteBlock scope)
      ⟨0, []⟩).2.taken = [] := h
  exact (hcuts ⟨0, []⟩).2 (by rw [hnothing])

/-- Structured data is kept, or a text is taken from it. -/
theorem linked_data_texts_le (harvest : Harvest) (html : Text) :
    (scanLinkedData harvest.scope html).2 = [] ∧ linkedDataTexts harvest html = (html, harvest) ∨
      (scanLinkedData harvest.scope html).2 ≠ [] ∧
        harvest.taken.length < (linkedDataTexts harvest html).2.taken.length := by
  have hfold (taken : List (Text × Text)) : ∀ start : Harvest,
      (taken.foldl (fun harvest entry ↦ (harvest.addPage entry.1 entry.2).2) start).taken.length =
        start.taken.length + taken.length := by
    induction taken with
    | nil => exact fun start ↦ rfl
    | cons entry taken ih =>
        intro start
        rw [List.foldl_cons, ih]
        simp only [addPage, List.length_cons]
        omega
  by_cases hscan : (scanLinkedData harvest.scope html).2 = []
  · refine .inl ⟨hscan, ?_⟩
    simp only [linkedDataTexts, hscan, scan_linked_data_eq harvest.scope html hscan,
      List.foldl_nil]
  · refine .inr ⟨hscan, ?_⟩
    have hpositive := List.length_pos_iff.mpr hscan
    simp only [linkedDataTexts, hfold]
    omega

end LinkedData

section Extraction

variable {vocabulary : Vocabulary} {scope brand html : Text}

/-- Nothing is left to take or to fill in a document. -/
structure Settled (vocabulary : Vocabulary) (scope brand html : Text) : Prop where
  head : HeadSettled html
  filled : HeadFilled html
  linkedData : (scanLinkedData scope html).2 = []
  navigation : NavigationSettled vocabulary.navLabels html
  switcher : SwitcherSettled html
  body : BodySettled vocabulary html
  footer : ∀ before slot rest, recognizeFooter.first? html = some (before, slot, rest) →
    FooterSettled vocabulary brand slot.content
  popup : PopupSettled vocabulary html
  links : LinksSettled html

/-- Nothing is left to fill in a document that only redirects. -/
structure RedirectSettled (target html : Text) : Prop where
  language : recognizeLanguage.first? html = none
  canonical : recognizeCanonical.first? html = none
  refresh : (recognizeRefresh target).first? html = none
  link : Text.contains html (linkTo ('/' :: target)) = false

/-- A document that only redirects is kept exactly when it is settled. -/
theorem template_redirect_eq_iff (target : Text) :
    templateRedirect target html = html ↔ RedirectSettled target html := by
  have hfills := fills_language.comp
    (fills_first fillable_canonical .canonicalUrl (show '"' ∉ [] by simp))
  have hinserts := (inserts_refresh target).comp (inserts_target_link target)
  have hiff := hinserts.fill_iff hfills html
  constructor
  · intro hsame
    obtain ⟨⟨hlanguage, hcanonical⟩, hrefresh, hlink⟩ := hiff.mp hsame
    exact ⟨hlanguage, hcanonical, hrefresh, hlink⟩
  · intro hsettled
    exact hiff.mpr ⟨⟨hsettled.language, hsettled.canonical⟩, hsettled.refresh, hsettled.link⟩

/-- A settled document goes through all passes as it is. -/
theorem extract_of_settled (h : Settled vocabulary scope brand html) :
    extractContent? scope vocabulary brand html = some (html, .empty scope) := by
  have hhead := head_texts_leaves.leaves html h.head (.empty scope)
  have hlinked := ((linked_data_texts_le (.empty scope) html).resolve_right
    fun hnot ↦ hnot.1 h.linkedData).2
  have hnavigation := ((navigation_le vocabulary.navLabels (.empty scope) html).resolve_right
    fun hnot ↦ hnot.1 h.navigation).2
  rw [inserts_switcher.stays html h.switcher] at hnavigation
  have hbody := body_texts_of_settled h.body (.empty scope)
  have hfooter := (footer_leaves brand).leaves html h.footer (.empty scope)
  have hpopup := region_popup_leaves.leaves html h.popup (.empty scope)
  simp only [extractContent?, hhead, fills_head.stays html h.filled, hlinked, hnavigation, hbody,
    hfooter, hpopup, inserts_links.stays html h.links, bind, Option.bind_some, pure]

/-- A run that takes nothing and gives the document back met a settled document. -/
theorem settled_of_run (run : Run vocabulary scope brand html) (htaken : run.popped.2.taken = [])
    (hsame : localizeLinks run.popped.1 = html) : Settled vocabulary scope brand html := by
  -- The harvest only grows, so no stage on the way has taken anything.
  have hnothing {agenda : Agenda} {harvest : Harvest}
      (h : Gathers vocabulary (agenda, harvest) ([], run.popped.2)) :
      ¬ (Harvest.empty scope).taken.length < harvest.taken.length := by
    have hsuffix : harvest.taken <:+ run.popped.2.taken := h.taken_suffix
    rw [htaken, List.suffix_nil] at hsuffix
    rw [hsuffix]
    exact Nat.not_lt_zero _
  have hhead : HeadSettled html := by
    by_contra hleft
    have htakes := head_texts_leaves.takes (.empty scope) html hleft
    rw [run.headed_eq] at htakes
    exact hnothing run.headed_gathers htakes
  have hheaded : run.headed = (html, .empty scope) := by
    rw [← run.headed_eq, head_texts_leaves.leaves html hhead]
  have hlinked := run.linked_eq
  rw [hheaded] at hlinked
  obtain ⟨hdata, hkept⟩ := (linked_data_texts_le (.empty scope) (fillHead html)).resolve_right
    fun hmore ↦ hnothing run.linked_gathers (by rw [← hlinked]; exact hmore.2)
  have hnavigated := run.navigated_eq
  rw [← hlinked, hkept] at hnavigated
  obtain ⟨hlabels, hadded⟩ :=
    (navigation_le vocabulary.navLabels (.empty scope) (fillHead html)).resolve_right
      fun hmore ↦ hnothing run.navigated_gathers (by rw [← hnavigated]; exact hmore.2)
  have hbody := run.body_eq
  rw [← hnavigated, hadded] at hbody
  have hbodySettled := body_settled_of_le hbody (Nat.not_lt.mp (hnothing run.body_gathers))
  rw [body_texts_of_settled hbodySettled] at hbody
  have hbodied : run.body = (addSwitcher (fillHead html), .empty scope) :=
    (Option.some.inj hbody).symm
  have hfooter : ∀ before slot rest, recognizeFooter.first? (addSwitcher (fillHead html)) =
      some (before, slot, rest) → FooterSettled vocabulary brand slot.content := by
    by_contra hleft
    have htakes := (footer_leaves brand).takes (.empty scope) _ hleft
    have hgathers := run.footed_gathers
    rw [Run.footed, hbodied] at hgathers
    exact hnothing hgathers htakes
  have hfooted : run.footed = (addSwitcher (fillHead html), .empty scope) := by
    rw [Run.footed, hbodied]
    exact (footer_leaves brand).leaves _ hfooter _
  have hpopup : PopupSettled vocabulary (addSwitcher (fillHead html)) := by
    by_contra hleft
    have htakes := region_popup_leaves.takes (.empty scope) _ hleft
    rw [Run.popped, hfooted] at htaken
    rw [htaken] at htakes
    exact Nat.not_lt_zero _ htakes
  have hpopped : run.popped = (addSwitcher (fillHead html), .empty scope) := by
    rw [Run.popped, hfooted]
    exact region_popup_leaves.leaves _ hpopup _
  rw [hpopped] at hsame
  -- What remains is to fill and to insert, and neither undoes the other.
  obtain ⟨hfilled, hswitcher, hlinks⟩ :=
    ((inserts_switcher.comp inserts_links).fill_iff fills_head html).mp hsame
  have hfill := fills_head.stays html hfilled
  rw [hfill] at hdata hlabels hbodySettled hfooter hpopup
  have hadd := inserts_switcher.stays html hswitcher
  rw [hadd] at hbodySettled hfooter hpopup
  exact ⟨hhead, hfilled, hdata, hlabels, hswitcher, hbodySettled, hfooter, hpopup, hlinks⟩

/-- Extraction gives a document back without any text exactly when nothing is left to take or to
fill in it. -/
theorem extract_stable_iff (page : Page) :
    extractPage? page vocabulary brand html = some ⟨html, [], []⟩ ↔
      match page.redirectTo with
      | some target => RedirectSettled target html
      | none => Settled vocabulary page.key brand html := by
  cases hredirect : page.redirectTo with
  | some target =>
      simp [extractPage?, hredirect, template_redirect_eq_iff]
  | none =>
      constructor
      · intro h
        simp only [extractPage?, hredirect, Option.map_eq_some_iff] at h
        obtain ⟨⟨template, harvest⟩, hextract, heq⟩ := h
        obtain ⟨htemplate, hpage, hshared⟩ := Extraction.mk.inj heq
        obtain ⟨run, hharvest, hsame⟩ := exists_run hextract
        have hrecorded : Recorded run.popped.2 :=
          (recorded_empty page.key).of_gathers run.gathers
        rw [← hharvest] at hpage hshared
        exact settled_of_run run (hrecorded.taken_eq_nil hpage hshared) (hsame.trans htemplate)
      · intro h
        simp only [extractPage?, hredirect, extract_of_settled h, Option.map_some]
        rfl

end Extraction

end LocalizedSite.Extract
