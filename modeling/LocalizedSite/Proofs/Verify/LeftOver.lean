import LocalizedSite.Proofs.Files.Tree
import LocalizedSite.Proofs.Render.Consistency
import LocalizedSite.Proofs.Seam
import LocalizedSite.Verify.Page

/-!
# References that are left in a page

## References that a text carries

The search for what looks like a reference is wider than the grammar of references, and it may begin
earlier, in malformed text. But it goes on behind every reference exactly where the reference ends
(`loose_behind`), so it finds each of the references that a text carries by itself (`Carries.found`).
-/

namespace LocalizedSite.Reference

/-- What the search for references finds: anything between braces without a closing brace inside. -/
theorem recognize_loose_eq_some {text token rest : Text} :
    recognizeLoose text = some (token, rest) ↔
      ∃ inside, inside ≠ [] ∧ '\x7d' ∉ inside ∧ token = mark ++ inside ++ closeBraces ∧
        text = token ++ rest := by
  constructor
  · intro h
    simp only [recognizeLoose, bind, Option.bind_eq_some_iff] at h
    obtain ⟨following, hmark, h⟩ := h
    rcases hspan : following.span (· != '\x7d') with ⟨inside, behind⟩
    simp only [hspan] at h
    obtain ⟨last, hclose, h⟩ := h
    obtain ⟨rfl, hinside, -⟩ := Text.span_spec hspan
    split at h
    · exact absurd h (by simp)
    · next hempty =>
        obtain ⟨rfl, rfl⟩ := by simpa using h
        refine ⟨inside, by simpa using hempty, fun hmem ↦ by simpa using hinside _ hmem, rfl, ?_⟩
        rw [Text.after_eq_some.mp hmark, Text.after_eq_some.mp hclose]
        simp
  · rintro ⟨inside, hnonempty, hinside, rfl, rfl⟩
    have hspan : (inside ++ (closeBraces ++ rest)).span (· != '\x7d') =
        (inside, closeBraces ++ rest) :=
      Text.span_append _ (fun character hmem ↦ bne_iff_ne.mpr fun heq ↦ hinside (heq ▸ hmem))
        fun character hhead ↦ by simpa [closeBraces] using hhead.symm
    simp only [recognizeLoose, List.append_assoc, bind, Text.after_append, Option.bind_some, hspan]
    simp [hnonempty]

theorem consuming_recognize_loose : Recognizer.Consuming recognizeLoose := by
  intro text token rest h
  obtain ⟨inside, -, -, rfl, rfl⟩ := recognize_loose_eq_some.mp h
  simp [mark, openBraces]
  omega

/-- Only one closing brace of a text is its first one. -/
theorem first_close_unique {front other back behind : Text} (hfront : '\x7d' ∉ front)
    (hother : '\x7d' ∉ other) (h : front ++ '\x7d' :: back = other ++ '\x7d' :: behind) :
    front = other ∧ back = behind := by
  have hspan {front : Text} (hfront : '\x7d' ∉ front) (back : Text) :
      (front ++ '\x7d' :: back).span (· != '\x7d') = (front, '\x7d' :: back) :=
    Text.span_append _ (fun character hmem ↦ bne_iff_ne.mpr fun heq ↦ hfront (heq ▸ hmem))
      fun character hhead ↦ by simpa using hhead.symm
  have heq := hspan hfront back
  rw [h, hspan hother behind] at heq
  obtain ⟨hsame, hrest⟩ := Prod.mk.inj heq
  exact ⟨hsame.symm, (List.cons.inj hrest).2.symm⟩

/-- A reference has no closing brace before its end. -/
theorem text_eq_close {reference : Reference} (h : reference.IsWellFormed) :
    ∃ inside, inside ≠ [] ∧ '\x7d' ∉ inside ∧ reference.text = mark ++ inside ++ closeBraces := by
  refine ⟨reference.scope ++ '.' :: reference.key, by simp, fun hmem ↦ ?_, by simp [text]⟩
  rcases List.mem_append.mp hmem with hmem | hmem
  · exact absurd (h.2.1 _ hmem) (by decide)
  · rcases List.mem_cons.mp hmem with heq | hmem
    · exact absurd heq (by decide)
    · exact absurd (h.2.2.2 _ hmem) (by decide)

/-- What is found in front of a reference ends before it or with it. -/
theorem loose_cases {reference : Reference} (h : reference.IsWellFormed) {front rest token : Text}
    {following : Text}
    (hread : recognizeLoose (front ++ (reference.text ++ rest)) = some (token, following)) :
    (∃ back, front = token ++ back ∧ following = back ++ (reference.text ++ rest)) ∨
      token = front ++ reference.text ∧ following = rest := by
  obtain ⟨inside, -, hinside, rfl, hsplit⟩ := recognize_loose_eq_some.mp hread
  obtain ⟨body, -, hbody, htext⟩ := text_eq_close h
  have hmark : '\x7d' ∉ mark := by decide
  have hfound : '\x7d' ∉ mark ++ inside := by simp [hmark, hinside]
  have htoken : mark ++ inside ++ closeBraces ++ following =
      mark ++ inside ++ '\x7d' :: '\x7d' :: following := by simp [closeBraces]
  rw [htoken] at hsplit
  by_cases hclose : '\x7d' ∈ front
  · -- the first closing brace stands in front of the reference, which does not begin with another
    obtain ⟨passed, back, rfl, hpassed⟩ := List.eq_append_cons_of_mem hclose
    rw [List.append_assoc, List.cons_append] at hsplit
    obtain ⟨rfl, hback⟩ := first_close_unique hpassed hfound hsplit
    cases back with
    | nil =>
        rw [List.nil_append, text_eq] at hback
        exact absurd (List.cons.inj hback).1 (by decide)
    | cons first back =>
        obtain ⟨rfl, rfl⟩ := List.cons.inj hback
        exact .inl ⟨back, by simp [closeBraces], rfl⟩
  · -- the first closing brace is that of the reference
    have hwhole : front ++ (reference.text ++ rest) =
        front ++ (mark ++ body) ++ '\x7d' :: '\x7d' :: rest := by simp [htext, closeBraces]
    have hpassed : '\x7d' ∉ front ++ (mark ++ body) := by simp [hclose, hmark, hbody]
    rw [hwhole] at hsplit
    obtain ⟨hsame, hrest⟩ := first_close_unique hpassed hfound hsplit
    refine .inr ⟨?_, (List.cons.inj hrest).2.symm⟩
    rw [← hsame, htext, List.append_assoc, List.append_assoc]

/-- Whatever stands in front of a reference, one token ends with the reference, and the search goes on
behind it. -/
theorem loose_behind {reference : Reference} (h : reference.IsWellFormed) (front rest : Text) :
    ∃ earlier token, reference.text <:+ token ∧
      Placeholder.unresolved (front ++ (reference.text ++ rest)) =
        earlier ++ token :: Placeholder.unresolved rest := by
  unfold Placeholder.unresolved
  -- What is read first may end in front of the reference, with less in front of it for the next
  -- search, so the induction is on how much stands there.
  induction hlength : front.length using Nat.strong_induction_on generalizing front with
  | _ length ih =>
      cases hread : recognizeLoose (front ++ (reference.text ++ rest)) with
      | some result =>
          obtain ⟨token, following⟩ := result
          rw [Cuts.occurrences_all_of_some consuming_recognize_loose hread]
          rcases loose_cases h hread with ⟨back, rfl, rfl⟩ | ⟨rfl, rfl⟩
          · have hshorter := consuming_recognize_loose _ _ _ hread
            simp only [List.length_append] at hlength hshorter
            obtain ⟨earlier, other, hends, hlater⟩ := ih back.length (by omega) back rfl
            exact ⟨token :: earlier, other, hends, by rw [hlater, List.cons_append]⟩
          · exact ⟨[], _, List.suffix_append .., rfl⟩
      | none =>
          cases front with
          | nil =>
              obtain ⟨inside, hnonempty, hinside, htext⟩ := text_eq_close h
              have hthere := recognize_loose_eq_some.mpr
                ⟨inside, hnonempty, hinside, htext, (List.nil_append (reference.text ++ rest))⟩
              exact absurd (hread.symm.trans hthere) (by simp)
          | cons character front =>
              simp only [List.cons_append] at hread ⊢
              rw [Cuts.occurrences_all_cons consuming_recognize_loose hread]
              exact ih front.length (by simp at hlength; omega) front rfl

/-- Well-formed references stand in a text one behind the other. -/
inductive Carries : Text → List Reference → Prop
  | nil (text : Text) : Carries text []
  | cons (front : Text) {reference : Reference} {rest : Text} {others : List Reference}
      (hwell : reference.IsWellFormed) (h : Carries rest others) :
      Carries (front ++ (reference.text ++ rest)) (reference :: others)

/-- More text in front changes nothing. -/
theorem Carries.behind {text : Text} {references : List Reference} (h : Carries text references)
    (front : Text) : Carries (front ++ text) references := by
  cases h with
  | nil => exact .nil _
  | cons passed hwell h =>
      rw [← List.append_assoc]
      exact .cons (front ++ passed) hwell h

/-- Reading a text from a file keeps the references in it. -/
theorem Carries.line_feeds {text : Text} {references : List Reference} (h : Carries text references) :
    Carries (FileTree.lineFeeds text) references := by
  rw [FileTree.line_feeds_eq_replace]
  induction h with
  | nil => exact .nil _
  | @cons front reference rest others hwell h ih =>
      -- no line break of the page reaches into a reference, nor does one end at its first brace
      have hreturn : '\r' ∉ reference.text := not_mem_text hwell (by decide)
      have hbegins : reference.text ++ rest = '\x7b' :: (reference.text ++ rest).tail := by
        rw [text_eq]
        rfl
      rw [hbegins, FileTree.replace_returns_append front (by decide), ← hbegins,
        FileTree.replace_returns_append_of_not_mem hreturn]
      exact .cons _ hwell ih

/-- Each of the references in a text is found by itself, in order, at the end of a token of its own. -/
theorem Carries.found {text : Text} {references : List Reference} (h : Carries text references) :
    List.SublistForall₂ (fun reference token ↦ reference.text <:+ token) references
      (Placeholder.unresolved text) := by
  induction h with
  | nil => exact .nil
  | @cons front reference rest others hwell h ih =>
      obtain ⟨earlier, token, hends, htokens⟩ := loose_behind hwell front rest
      obtain ⟨tokens, hothers, hsublist⟩ := List.sublistForall₂_iff.mp ih
      rw [htokens]
      exact List.sublistForall₂_iff.mpr ⟨token :: tokens, .cons hends hothers,
        (hsublist.cons_cons token).trans (List.sublist_append_right earlier _)⟩

end LocalizedSite.Reference

/-!
## References that are left over

A reference without a text stays in the rendered page, so the page carries it and the search for
unresolved references finds it, whatever the texts are that were filled in. The check of a built page
reports at least as many errors as references were left (`render_page_left_over_found`).
-/

namespace LocalizedSite

namespace Render

open Reference

/-- A reference of a page has no text. -/
def IsMissing (dictionaries : Dictionaries) (reference : Reference) : Bool :=
  (dictionaries.locale.text? reference.scope reference.key).isNone

/-- The references without a text stand in what is written, in order. -/
theorem carries_of_fills {dictionaries : Dictionaries} {cuts : Cuts Reference} {text : Text}
    (hwell : ∀ reference ∈ cuts.occurrences, reference.IsWellFormed)
    (h : cuts.Fills (IsWritten dictionaries) text) :
    Carries text (cuts.occurrences.filter (IsMissing dictionaries)) := by
  obtain ⟨found, tail⟩ := cuts
  obtain ⟨values, hvalues, rfl⟩ := h
  induction found generalizing values with
  | nil => exact .nil _
  | cons piece found ih =>
      obtain ⟨before, reference⟩ := piece
      obtain ⟨value, others, hvalue, hothers, rfl⟩ := List.forall₂_cons_left_iff.mp hvalues
      have hlater := ih (fun other hmem ↦ hwell other (List.mem_cons_of_mem _ hmem)) others hothers
      have htext : Cuts.weave ⟨(before, reference) :: found, tail⟩ (value :: others) =
          before ++ (value ++ Cuts.weave ⟨found, tail⟩ others) := by simp [Cuts.weave]
      rw [htext]
      show Carries _ (List.filter _ (reference :: Cuts.occurrences ⟨found, tail⟩))
      cases hvalue with
      | plain hsome | escaped hsome =>
          -- whatever the text is, it is only something more in front of the next reference
          rw [List.filter_cons_of_neg (by simp [IsMissing, hsome])]
          exact (hlater.behind _).behind before
      | unresolved hnone =>
          rw [List.filter_cons_of_pos (by simp [IsMissing, hnone])]
          exact .cons before (hwell reference (List.mem_cons_self ..)) hlater

/-- The records of references without a text are those of the references that have none. -/
theorem map_reference_unresolved (dictionaries : Dictionaries) (references : List Reference) :
    ((references.map dictionaries.resolve).filterMap Resolution.unresolved?).map
        Unresolved.reference = references.filter (IsMissing dictionaries) := by
  induction references with
  | nil => rfl
  | cons reference references ih =>
      rw [List.map_cons, List.filterMap_cons, List.filter_cons, ← ih, Dictionaries.resolve, IsMissing]
      cases dictionaries.locale.text? reference.scope reference.key with
      | some text => rfl
      | none => cases dictionaries.source.text? reference.scope reference.key <;> rfl

/-- A rendered page carries the references that it leaves unresolved. -/
theorem render_page_carries (registry : Registry) (page : Page) (locale : Locale)
    (dictionaries : Dictionaries) (template : Text) :
    let rendering := renderPage registry page locale dictionaries template
    Carries rendering.text (rendering.unresolved.map Unresolved.reference) := by
  intro rendering
  obtain ⟨hfills, hresolutions⟩ :=
    render_filled_fills dictionaries (registry.fill page locale template)
  have hrecords : rendering.unresolved.map Unresolved.reference =
      (Reference.all (registry.fill page locale template)).filter (IsMissing dictionaries) := by
    rw [Rendering.unresolved, ← map_reference_unresolved, ← hresolutions]
    rfl
  rw [hrecords]
  exact carries_of_fills (fun reference hmem ↦ well_formed_of_mem hmem) hfills

end Render

namespace Verify

open Render

/-- The errors among some findings that are about one file. -/
def errorsAbout (place : Text) (diagnostics : List Diagnostic) : List Diagnostic :=
  (withSeverity .error diagnostics).filter fun diagnostic ↦ diagnostic.path = some place

/-- Every token that is found in a file is an error about it. -/
theorem unresolved_le_errors {files : List PageFile} {file : PageFile} (h : file ∈ files) :
    (Placeholder.unresolved file.text).length ≤
      (errorsAbout file.place (checkPlaceholders files)).length := by
  let errors := fun file : PageFile ↦ (Placeholder.unresolved file.text).map fun token ↦
    errorIn .placeholders file.place (file.place ++ ": unresolved ".toList ++ token)
  have hcount : (errors file).length = (Placeholder.unresolved file.text).length :=
    List.length_map ..
  have hkept : errorsAbout file.place (errors file) = errors file := by
    simp [errors, errorsAbout, withSeverity, errorIn, List.filter_filter, List.filter_eq_self]
  have hsublist : (errors file).Sublist (files.flatMap errors) := by
    rw [List.flatMap_def]
    exact List.sublist_flatten_of_mem (List.mem_map_of_mem h)
  show _ ≤ (errorsAbout file.place (orPassed .placeholders _ (files.flatMap errors))).length
  unfold orPassed
  split
  · next hnone =>
      -- nothing is found in any file, so that the check has passed
      rw [List.isEmpty_iff.mp hnone] at hsublist
      rw [← hcount, List.sublist_nil.mp hsublist]
      exact Nat.zero_le _
  · rw [← hcount, ← hkept]
    exact ((hsublist.filter _).filter _).length_le

/-- Every reference that a rendered page leaves unresolved is found in the page: in order, each at the
end of a token of its own. So the check of built pages reports at least as many errors about the file
with the page, as it was written or as it is read back, whatever the other files are. -/
theorem render_page_left_over_found (registry : Registry) (page : Page) (locale : Locale)
    (dictionaries : Dictionaries) (template : Text) :
    let rendering := renderPage registry page locale dictionaries template
    List.SublistForall₂ (fun record token ↦ record.reference.text <:+ token) rendering.unresolved
        (Placeholder.unresolved rendering.text) ∧
      ∀ (earlier later : List PageFile) (place : Text),
        rendering.unresolved.length ≤ (errorsAbout place (checkPlaceholders
            (earlier ++ ⟨page, locale, place, rendering.text⟩ :: later))).length ∧
          rendering.unresolved.length ≤ (errorsAbout place (checkPlaceholders
            (earlier ++ ⟨page, locale, place, FileTree.lineFeeds rendering.text⟩ :: later))).length := by
  intro rendering
  have hcarries : Reference.Carries rendering.text (rendering.unresolved.map Unresolved.reference) :=
    render_page_carries registry page locale dictionaries template
  have hreported (text : Text)
      (h : Reference.Carries text (rendering.unresolved.map Unresolved.reference))
      (earlier later : List PageFile) (place : Text) :
      rendering.unresolved.length ≤ (errorsAbout place (checkPlaceholders
        (earlier ++ ⟨page, locale, place, text⟩ :: later))).length := by
    obtain ⟨tokens, hends, hsublist⟩ := List.sublistForall₂_iff.mp h.found
    have hlength := hends.length_eq
    rw [List.length_map] at hlength
    have hfile : (⟨page, locale, place, text⟩ : PageFile) ∈
        earlier ++ ⟨page, locale, place, text⟩ :: later := by simp
    exact (hlength.le.trans hsublist.length_le).trans (unresolved_le_errors hfile)
  have hfound := hcarries.found
  rw [List.sublistForall₂_map_left_iff] at hfound
  exact ⟨hfound, fun earlier later place ↦
    ⟨hreported _ hcarries earlier later place, hreported _ hcarries.line_feeds earlier later place⟩⟩

/-- A token that begins in a text of the dictionary ends with the reference behind it. -/
example : Placeholder.unresolved "\x7b\x7bt.a \x7b\x7bt.home.h1\x7d\x7d".toList =
    ["\x7b\x7bt.a \x7b\x7bt.home.h1\x7d\x7d".toList] := by
  decide

end Verify

end LocalizedSite
