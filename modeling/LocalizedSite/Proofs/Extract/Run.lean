import LocalizedSite.Proofs.Extract.LinkedData
import LocalizedSite.Proofs.Extract.Rewriting

/-!
# Runs over a page

`Run` names the drafts between the passes of an extraction, and every extraction that returns is one
(`exists_run`). From each draft on, the harvest grows step by step over the fixed keys still to come;
`Run.gathers` is the whole run.
-/

namespace LocalizedSite.Extract

open Slot Harvest

variable {vocabulary : Vocabulary}

/-- Sharing the labels of navigation is a sequence of small steps for the harvest. -/
theorem navigation_gathers (agenda : Agenda) (harvest : Harvest) (html : Text) :
    Gathers vocabulary (agenda, harvest)
      (agenda, (navigation vocabulary.navLabels harvest html).2) := by
  have hnavigation : ∀ state : Bool × Harvest, Gathers vocabulary (agenda, state.2)
      (agenda, ((Cuts.all recognizeNavigation html).rewrite
        (rewriteNavigation vocabulary.navLabels) state).2.2) := by
    refine Cuts.all_induction framing_navigation.consuming
      (motive := fun _ cuts ↦ ∀ state : Bool × Harvest, Gathers vocabulary (agenda, state.2)
        (agenda, (cuts.rewrite (rewriteNavigation vocabulary.navLabels) state).2.2))
      (fun _ _ state ↦ .refl) ?_ html
    intro text before slot rest _ ih state
    have hlabels : Pass.Rewrites vocabulary [] (shareLinkLabels vocabulary.navLabels) :=
      share_link_labels_rewrites fun entry hentry ↦ by simp [Vocabulary.labels, hentry]
    have hslot := (hlabels agenda state.2 slot.content).gathers
    rw [Cuts.rewrite_cons]
    exact hslot.trans (ih (rewriteNavigation vocabulary.navLabels state slot).2)
  exact hnavigation (!Text.contains html (Structural.text .langSwitcher), harvest)

/-- The drafts between the passes of the run over a page. -/
structure Run (vocabulary : Vocabulary) (scope brand html : Text) where
  /-- The draft after the texts of the head. -/
  headed : Draft
  /-- The draft after the structural placeholders of the head and the structured data. -/
  linked : Draft
  /-- The draft after the navigation. -/
  navigated : Draft
  /-- The draft after the body text. -/
  body : Draft
  headed_eq : headTexts (.empty scope) html = headed
  linked_eq : linkedDataTexts headed.2 (fillHead headed.1) = linked
  navigated_eq : navigation vocabulary.navLabels linked.2 linked.1 = navigated
  body_eq : bodyTexts? vocabulary navigated.2 navigated.1 = some body

namespace Run

variable {scope brand html : Text}

/-- The draft after the footer. -/
def footed (run : Run vocabulary scope brand html) : Draft :=
  footer vocabulary brand run.body.2 run.body.1

/-- The draft after the region popup. -/
def popped (run : Run vocabulary scope brand html) : Draft :=
  regionPopup vocabulary run.footed.2 run.footed.1

/-- The keys of the structured data that the run meets. -/
def linkedKeys (run : Run vocabulary scope brand html) : List Text :=
  (scanLinkedData scope (fillHead run.headed.1)).2.map Prod.fst

/-- The fixed keys of the run. -/
def agenda (run : Run vocabulary scope brand html) : Agenda :=
  agendaOf .own (headKeys ++ run.linkedKeys) ++ agendaOf .shared (footerKeys ++ popupKeys)

/-- The fixed keys after the structured data. -/
abbrev placeAgenda : Agenda :=
  agendaOf .shared (footerKeys ++ popupKeys)

/-- After the footer the harvest only grows. -/
theorem footed_gathers (run : Run vocabulary scope brand html) :
    Gathers vocabulary (agendaOf .shared popupKeys, run.footed.2) ([], run.popped.2) := by
  have hpopup : Rewriting vocabulary _ _ := region_popup_rewrites [] run.footed.2 run.footed.1
  rw [List.append_nil] at hpopup
  exact hpopup.gathers

/-- After the body text the harvest only grows. -/
theorem body_gathers (run : Run vocabulary scope brand html) :
    Gathers vocabulary (placeAgenda, run.body.2) ([], run.popped.2) := by
  have hfooter : Rewriting vocabulary _ _ :=
    footer_rewrites brand (agendaOf .shared popupKeys) run.body.2 run.body.1
  exact hfooter.gathers.trans run.footed_gathers

/-- After the navigation the harvest only grows. -/
theorem navigated_gathers (run : Run vocabulary scope brand html) :
    Gathers vocabulary (placeAgenda, run.navigated.2) ([], run.popped.2) :=
  (body_rewriting placeAgenda run.body_eq).gathers.trans run.body_gathers

/-- After the structured data the harvest only grows. -/
theorem linked_gathers (run : Run vocabulary scope brand html) :
    Gathers vocabulary (placeAgenda, run.linked.2) ([], run.popped.2) := by
  have hnavigation : Gathers vocabulary _ _ :=
    navigation_gathers placeAgenda run.linked.2 run.linked.1
  rw [run.navigated_eq] at hnavigation
  exact hnavigation.trans run.navigated_gathers

/-- The texts of the head are taken in small steps. -/
theorem headed_rewriting (run : Run vocabulary scope brand html) (rest : Agenda) :
    Rewriting vocabulary (agendaOf .own headKeys ++ rest, html, .empty scope)
      (rest, run.headed) := by
  rw [← run.headed_eq]
  exact head_texts_rewrites rest (.empty scope) html

/-- After the texts of the head the harvest only grows. -/
theorem headed_gathers (run : Run vocabulary scope brand html) :
    Gathers vocabulary (agendaOf .own run.linkedKeys ++ placeAgenda, run.headed.2)
      ([], run.popped.2) := by
  have hscope : run.headed.2.scope = scope := (run.headed_rewriting []).gathers.scope_eq
  have hlinked : Gathers vocabulary _ _ :=
    linked_data_texts_gathers placeAgenda run.headed.2 (fillHead run.headed.1)
  rw [run.linked_eq, hscope] at hlinked
  exact hlinked.trans run.linked_gathers

/-- Along a whole run the harvest only grows from the empty one, over the fixed keys of the run. -/
theorem gathers (run : Run vocabulary scope brand html) :
    Gathers vocabulary (run.agenda, .empty scope) ([], run.popped.2) := by
  have hagenda : run.agenda =
      agendaOf .own headKeys ++ (agendaOf .own run.linkedKeys ++ placeAgenda) := by
    simp [agenda, agendaOf]
  rw [hagenda]
  exact (run.headed_rewriting _).gathers.trans run.headed_gathers

end Run

/-- An extraction that returns is a run, and the template is its last draft with localized links. -/
theorem exists_run {scope brand html template : Text} {harvest : Harvest}
    (h : extractContent? scope vocabulary brand html = some (template, harvest)) :
    ∃ run : Run vocabulary scope brand html,
      run.popped.2 = harvest ∧ localizeLinks run.popped.1 = template := by
  simp only [extractContent?, bind, Option.bind_eq_some_iff] at h
  obtain ⟨body, hbody, h⟩ := h
  obtain ⟨htemplate, hharvest⟩ := Prod.mk.inj (Option.some.inj h)
  exact ⟨⟨_, _, _, body, rfl, rfl, rfl, hbody⟩, hharvest, htemplate⟩

/-- Extracting a page that is no redirect is a run. -/
theorem exists_run_of_page {page : Page} {brand html : Text} {extraction : Extraction}
    (hredirect : page.redirectTo = none)
    (h : extractPage? page vocabulary brand html = some extraction) :
    ∃ run : Run vocabulary page.key brand html,
      extraction = ⟨localizeLinks run.popped.1, run.popped.2.page, run.popped.2.shared⟩ := by
  simp only [extractPage?, hredirect, Option.map_eq_some_iff] at h
  obtain ⟨⟨template, harvest⟩, hcontent, rfl⟩ := h
  obtain ⟨run, rfl, rfl⟩ := exists_run hcontent
  exact ⟨run, rfl⟩

end LocalizedSite.Extract
