import LocalizedSite.Files.Path
import LocalizedSite.Proofs.Text.Lines

/-!
# The names along the path of a text

A text is a way (`IsWay`) if it is empty or ends in a slash. Everything about the names that a text denotes
follows from one equation: behind a way they are the names of the way and those of the rest (`parts_append`).
A text is a way and its last name (`way_append_last_name`).
-/

namespace LocalizedSite

/-- A text that ends where a name of a path may begin. -/
def IsWay (front : Text) : Prop :=
  front = [] ∨ ∃ above, front = above ++ ['/']

/-- A way behind a way. -/
theorem IsWay.append {front next : Text} (h : IsWay front) (hnext : IsWay next) :
    IsWay (front ++ next) := by
  rcases hnext with rfl | ⟨above, rfl⟩
  · rw [List.append_nil]
    exact h
  · exact .inr ⟨front ++ above, (List.append_assoc ..).symm⟩

/-- What stands behind the last slash of a text. -/
def lastName (text : Text) : Text :=
  (text.reverse.takeWhile (· != '/')).reverse

/-- A name has no slash. -/
theorem not_mem_last_name (text : Text) : '/' ∉ lastName text := by
  intro hmem
  have hpassed := List.all_eq_true.mp (List.all_takeWhile (p := (· != '/'))) '/'
    (List.mem_reverse.mp hmem)
  simp at hpassed

/-- A text is a way and its last name. -/
theorem way_append_last_name (text : Text) : ∃ front, text = front ++ lastName text ∧ IsWay front := by
  refine ⟨(text.reverse.dropWhile (· != '/')).reverse, ?_, ?_⟩
  · unfold lastName
    rw [← List.reverse_append, List.takeWhile_append_dropWhile, List.reverse_reverse]
  · cases hdrop : text.reverse.dropWhile (· != '/') with
    | nil => exact .inl rfl
    | cons character rest =>
        have hslash := List.head?_dropWhile_not (· != '/') text.reverse
        rw [hdrop] at hslash
        have hcharacter : character = '/' := by simpa using hslash
        exact .inr ⟨rest.reverse, by rw [hcharacter, List.reverse_cons]⟩

/-- A text without slashes ends a way and another text exactly if it ends the other one. -/
theorem IsWay.ends_with_append {front ending : Text} (h : IsWay front) (hending : '/' ∉ ending)
    (rest : Text) : Text.endsWith (front ++ rest) ending = Text.endsWith rest ending := by
  refine Bool.eq_iff_iff.mpr ?_
  unfold Text.endsWith
  rw [List.isSuffixOf_iff_suffix, List.isSuffixOf_iff_suffix]
  refine ⟨fun hall ↦ ?_, fun hrest ↦ hrest.trans (List.suffix_append front rest)⟩
  rcases List.suffix_or_suffix_of_suffix hall (List.suffix_append front rest) with hrest | hrest
  · exact hrest
  · -- the ending would reach into the way, so it would have the slash at the way's end
    obtain ⟨inside, rfl⟩ := hrest
    obtain ⟨outside, heq⟩ := hall
    rw [← List.append_assoc] at heq
    rcases h with rfl | ⟨above, rfl⟩
    · rw [(List.append_eq_nil_iff.mp (List.append_cancel_right heq)).2]
      exact List.suffix_refl _
    · have hwhole := List.append_cancel_right heq
      rcases List.eq_nil_or_concat inside with rfl | ⟨inside, last, rfl⟩
      · exact List.suffix_refl _
      · rw [List.concat_eq_append, ← List.append_assoc] at hwhole
        obtain ⟨-, hlast⟩ := List.append_inj' hwhole rfl
        exact absurd (by simp [List.cons.inj hlast]) hending

namespace FilePath

/-- No name is left of an empty text. -/
@[simp] theorem parts_nil : (ofText []).parts = [] := rfl

/-- The names behind a slash follow those before it. -/
theorem parts_append_slash (front rest : Text) :
    (ofText (front ++ '/' :: rest)).parts = (ofText front).parts ++ (ofText rest).parts := by
  unfold ofText
  rw [Text.split_at_append_separator, List.filter_append]

/-- The names behind a way. -/
theorem parts_append {front : Text} (h : IsWay front) (rest : Text) :
    (ofText (front ++ rest)).parts = (ofText front).parts ++ (ofText rest).parts := by
  rcases h with rfl | ⟨above, rfl⟩
  · rfl
  · rw [List.append_assoc, List.singleton_append, parts_append_slash, parts_append_slash, parts_nil,
      List.append_nil]

/-- A text without slashes denotes itself, if it leads anywhere. -/
theorem parts_of_not_mem {name : Text} (h : '/' ∉ name) :
    (ofText name).parts = if isIdle name then [] else [name] := by
  unfold ofText
  rw [Text.split_at_of_not_mem h]
  cases hidle : isIdle name <;> simp [hidle]

/-- A text that does not begin with a slash denotes a relative path. -/
theorem root_of_ne {text : Text} (h : text.head? ≠ some '/') : (ofText text).root = [] := by
  cases text with
  | nil => rfl
  | cons character text =>
      have hcharacter : character ≠ '/' := fun heq ↦ h (congrArg some heq)
      have htake : (character :: text).takeWhile (· == '/') = [] :=
        List.takeWhile_cons_of_neg (by simpa using hcharacter)
      show rootOf (character :: text) = []
      unfold rootOf
      rw [htake]
      rfl

/-- A relative path below a directory. -/
theorem join_text_of_ne (directory : FilePath) {text : Text} (h : text.head? ≠ some '/') :
    directory.joinText text = ⟨directory.root, directory.parts ++ (ofText text).parts⟩ := by
  unfold joinText join isAbsolute
  rw [root_of_ne h]
  rfl

end FilePath

end LocalizedSite
