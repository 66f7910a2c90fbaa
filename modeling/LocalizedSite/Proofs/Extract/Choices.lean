import LocalizedSite.Extract.Page

/-!
# What the choices take

A choice takes the contents of one kind, each in its own way, and leaves every other where it stands
(`Choice.TakesAs`). One lemma for each choice of the passes; `Choice.TakesAs.eq_some` says what is known
where a choice has taken something.
-/

namespace LocalizedSite.Extract

/-- A content that is worth a dictionary entry. -/
def isWorth (content : Text) : Bool :=
  !isNegligible content

/-- A content that is worth a dictionary entry and holds no placeholder at all. -/
def isStrictlyWorth (content : Text) : Bool :=
  !Placeholder.occursIn content && !isNegligible content

/-- A choice takes every wanted content in one way and nothing else. -/
def Choice.TakesAs (choose : Choice) (wanted : Text → Bool)
    (take : Harvest → Text → Text × Harvest) : Prop :=
  ∀ harvest content,
    choose harvest content = if wanted content then some (take harvest content) else none

/-- What was taken was wanted. -/
theorem Choice.TakesAs.eq_some {choose : Choice} {wanted : Text → Bool}
    {take : Harvest → Text → Text × Harvest} (h : choose.TakesAs wanted take) {harvest : Harvest}
    {content : Text} {result : Text × Harvest} :
    choose harvest content = some result ↔
      wanted content = true ∧ take harvest content = result := by
  rw [h harvest content]
  split
  · next hwanted => simp [hwanted]
  · next hwanted => simp [hwanted]

theorem page_text_takes_as (key : Text) :
    (pageText key).TakesAs isLiteral fun harvest content ↦ harvest.addPage key content :=
  fun _ _ ↦ rfl

theorem trimmed_page_text_takes_as (key : Text) :
    (trimmedPageText key).TakesAs isLiteral fun harvest content ↦
      harvest.addPage key (Text.trim content) :=
  fun _ _ ↦ rfl

theorem numbered_text_takes_as (category : Text) :
    (numberedText category).TakesAs isWorth fun harvest content ↦
      harvest.addNumbered category (Text.trim content) := by
  intro harvest content
  cases hcontent : isNegligible content <;> simp [numberedText, isWorth, hcontent]

theorem strict_text_takes_as (category : Text) :
    (strictText category).TakesAs isStrictlyWorth fun harvest content ↦
      harvest.addNumbered category (Text.trim content) := by
  intro harvest content
  cases hplaceholder : Placeholder.occursIn content with
  | true => simp [strictText, isStrictlyWorth, hplaceholder]
  | false =>
      simp [strictText, isStrictlyWorth, hplaceholder, numbered_text_takes_as category harvest content,
        isWorth]

theorem header_text_takes_as :
    headerText.TakesAs (fun content ↦ isWorth (Text.trim content)) fun harvest content ↦
      harvest.addShared (headerKey (Text.trim content)) (Text.trim content) := by
  intro harvest content
  cases hcontent : isNegligible (Text.trim content) <;> simp [headerText, isWorth, hcontent]

theorem label_text_takes_as :
    labelText.TakesAs isLiteral fun harvest content ↦
      harvest.addShared (labelKey content) content :=
  fun _ _ ↦ rfl

/-- Take the label of a button: shared if the vocabulary knows it, and numbered otherwise. -/
def takeButton (sharedButtons : Entries Text) (harvest : Harvest) (content : Text) :
    Text × Harvest :=
  match Entries.get? sharedButtons (Text.trim content) with
  | some (initial :: key) => harvest.addShared (initial :: key) (Text.trim content)
  | _ => harvest.addNumbered "btn".toList (Text.trim content)

theorem button_text_takes_as (sharedButtons : Entries Text) :
    (buttonText sharedButtons).TakesAs isStrictlyWorth (takeButton sharedButtons) := by
  intro harvest content
  cases hskip : isNegligible content || Placeholder.occursIn content with
  | true =>
      have hwanted : isStrictlyWorth content = false := by
        rw [isStrictlyWorth, ← Bool.not_or, Bool.or_comm, hskip, Bool.not_true]
      rw [buttonText, if_pos hskip, if_neg (by simp [hwanted])]
  | false =>
      have hwanted : isStrictlyWorth content = true := by
        rw [isStrictlyWorth, ← Bool.not_or, Bool.or_comm, hskip, Bool.not_false]
      rw [buttonText, if_neg (by simp [hskip]), if_pos hwanted, takeButton]
      dsimp only
      cases Entries.get? sharedButtons (Text.trim content) with
      | none => rfl
      | some key => cases key <;> rfl

theorem shared_text_takes_as (key : Text) :
    (sharedText key).TakesAs isLiteral fun harvest content ↦
      harvest.addShared key (Text.trim content) :=
  fun _ _ ↦ rfl

theorem rights_text_takes_as :
    rightsText.TakesAs isLiteral fun harvest content ↦
      ((harvest.addShared "footer_rights".toList (Text.trim content)).1 ++ [' '],
        (harvest.addShared "footer_rights".toList (Text.trim content)).2) := by
  intro harvest content
  rw [rightsText, shared_text_takes_as]
  split <;> rfl

end LocalizedSite.Extract
