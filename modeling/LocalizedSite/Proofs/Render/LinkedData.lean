import LocalizedSite.Proofs.Json.Accepted
import LocalizedSite.Proofs.Placeholder
import LocalizedSite.Proofs.Render.Blocks
import LocalizedSite.Proofs.Render.Script

/-!
# Linked data in every locale

In a block of linked data the references stand between quotes, each as the whole content of a string.
The rendered block is the same value with a text of the dictionary in place of each of them, and every
`</` in it stands where the block of the template has it (`render_page_linked_data`).
-/

namespace LocalizedSite

open Render

namespace Cuts

variable {α : Type} {write : α → Text}

/-- Every `</` that is written stands in a literal piece. -/
def KeepsEnds (write : α → Text) (cuts : Cuts α) : Prop :=
  ∀ front back, cuts.text write = front ++ endMark ++ back →
    ∃ first second : Cuts α, cuts = first.append ((plain endMark).append second) ∧
      first.text write = front ∧ second.text write = back

/-- A cut text in which every occurrence stands between quotes. -/
inductive Fenced : Cuts α → Prop
  | plain (text : Text) : Fenced (plain text)
  | occurrence (before : Text) (occurrence : α) {later : Cuts α} (h : Fenced later) :
      Fenced ((Cuts.plain (before ++ ['"'])).append
        ((single occurrence).append ((Cuts.plain ['"']).append later)))

/-- Two cut texts one after the other have their occurrences between quotes if both have. -/
theorem Fenced.append {first second : Cuts α} (hfirst : Fenced first) (hsecond : Fenced second) :
    Fenced (first.append second) := by
  induction hfirst with
  | plain text =>
      cases hsecond with
      | plain other => exact .plain (text ++ other)
      | occurrence before found h =>
          rw [← append_assoc, plain_append_plain, ← List.append_assoc]
          exact .occurrence (text ++ before) found h
  | occurrence before found _ ih =>
      rw [append_assoc, append_assoc, append_assoc]
      exact .occurrence before found ih

/-- A literal text keeps its ends. -/
theorem keeps_ends_plain (text : Text) : KeepsEnds write (plain text) := by
  intro front back hsplit
  refine ⟨plain front, plain back, ?_, rfl, rfl⟩
  rw [plain_append_plain, plain_append_plain, ← List.append_assoc, ← hsplit]
  rfl

/-- A text in which nothing ends may be written for an occurrence. -/
theorem keeps_ends_single {occurrence : α} (h : ¬ endMark <:+: write occurrence) :
    KeepsEnds write (single occurrence) := by
  intro front back hsplit
  rw [text_single] at hsplit
  exact absurd ⟨front, back, hsplit.symm⟩ h

/-- Two cut texts one after the other keep their ends, unless `<` is written last in the first one and
`/` first in the second one. -/
theorem KeepsEnds.append {first second : Cuts α} (hfirst : KeepsEnds write first)
    (hsecond : KeepsEnds write second)
    (hseam : (first.text write).getLast? ≠ some '<' ∨ (second.text write).head? ≠ some '/') :
    KeepsEnds write (first.append second) := by
  have hinSecond (front back : Text) (h : second.text write = front ++ endMark ++ back) :
      ∃ before after : Cuts α, first.append second = before.append ((plain endMark).append after) ∧
        before.text write = first.text write ++ front ∧ after.text write = back := by
    obtain ⟨before, after, hcuts, rfl, rfl⟩ := hsecond front back h
    exact ⟨first.append before, after, by rw [hcuts, append_assoc], text_append .., rfl⟩
  have hinFirst (front back : Text) (h : first.text write = front ++ endMark ++ back) :
      ∃ before after : Cuts α, first.append second = before.append ((plain endMark).append after) ∧
        before.text write = front ∧ after.text write = back ++ second.text write := by
    obtain ⟨before, after, hcuts, rfl, rfl⟩ := hfirst front back h
    exact ⟨before, after.append second, by rw [hcuts, append_assoc, append_assoc], rfl,
      text_append ..⟩
  intro front back hsplit
  rw [text_append] at hsplit
  rcases List.append_eq_append_iff.mp hsplit with ⟨inside, hfront, hback⟩ | ⟨inside, hfirst, rfl⟩
  · rcases List.append_eq_append_iff.mp hfront with ⟨passed, hpassed, hmark⟩ | ⟨passed, rfl, rfl⟩
    · -- The mark begins in the first text or at the seam; it cannot lie on both sides of the seam.
      have hchars : ['<', '/'] = passed ++ inside := hmark
      rcases passed with _ | ⟨character, _ | ⟨next, passed⟩⟩
      · rw [List.append_nil] at hpassed
        rw [← hpassed]
        obtain ⟨before, after, hcuts, hbefore, hafter⟩ :=
          hinSecond [] back (by rw [hback, hmark]; rfl)
        exact ⟨before, after, hcuts, by rw [hbefore, List.append_nil], hafter⟩
      · obtain ⟨rfl, rfl⟩ := List.cons.inj hchars
        rcases hseam with hlast | hhead
        · exact absurd (by rw [hpassed, List.getLast?_concat]) hlast
        · exact absurd (by rw [hback]; rfl) hhead
      · obtain ⟨hfirst, hchars⟩ := List.cons.inj hchars
        obtain ⟨hnext, hnil⟩ := List.cons.inj hchars
        obtain ⟨rfl, rfl⟩ := List.append_eq_nil_iff.mp hnil.symm
        obtain ⟨before, after, hcuts, hbefore, hafter⟩ :=
          hinFirst front [] (by rw [hpassed, ← hfirst, ← hnext, List.append_nil]; rfl)
        exact ⟨before, after, hcuts, hbefore, by rw [hafter, hback]; rfl⟩
    · exact hinSecond _ _ hback
  · exact hinFirst _ _ hfirst

/-- If every occurrence stands between quotes and nothing ends in what is written for it, all ends are
kept. -/
theorem Fenced.keeps_ends {cuts : Cuts α} (h : Fenced cuts)
    (hwrite : ∀ occurrence ∈ cuts.occurrences, ¬ endMark <:+: write occurrence) :
    KeepsEnds write cuts := by
  induction h with
  | plain text => exact keeps_ends_plain text
  | occurrence before found _ ih =>
      simp only [occurrences_append, occurrences_plain, occurrences_single, List.nil_append,
        List.singleton_append, List.mem_cons] at hwrite
      have hlater := ih fun occurrence hmem ↦ hwrite occurrence (.inr hmem)
      refine (keeps_ends_plain _).append ((keeps_ends_single (hwrite found (.inl rfl))).append
        ((keeps_ends_plain _).append hlater (.inl ?_)) (.inr ?_)) (.inl ?_)
      · exact Option.some_inj.not.mpr (by decide)
      · rw [text_append, text_plain]
        exact Option.some_inj.not.mpr (by decide)
      · rw [text_plain, List.getLast?_concat]
        exact Option.some_inj.not.mpr (by decide)

end Cuts

namespace Json

variable {α : Type} {fits : α → Prop}

/-- What is left open in a JSON text stands between quotes. -/
theorem Spells.fenced {part : Part α} {cuts : Cuts α} (h : Spells fits part cuts) : cuts.Fenced := by
  induction h with
  | atom => exact .plain _
  | string => exact .plain _
  | @hole occurrence => exact .occurrence [] occurrence (.plain [])
  | emptyArray => exact .plain _
  | array _ _ ih => exact (Cuts.Fenced.plain _).append ih
  | emptyObject => exact .plain _
  | object _ _ ih => exact (Cuts.Fenced.plain _).append ih
  | lastItem _ _ ih => exact ih.append (.plain _)
  | item _ _ _ _ ih ihOthers => exact ih.append ((Cuts.Fenced.plain _).append ihOthers)
  | lastMember _ _ _ _ _ ih => exact (Cuts.Fenced.plain _).append (ih.append (.plain _))
  | member _ _ _ _ _ _ _ ih ihOthers =>
      exact (Cuts.Fenced.plain _).append (ih.append ((Cuts.Fenced.plain _).append ihOthers))

/-- What is left open in a document stands between quotes. -/
theorem Document.fenced {shape : Shape α} {cuts : Cuts α} (h : Document fits shape cuts) :
    cuts.Fenced := by
  obtain ⟨before, inner, after, -, -, hinner, rfl⟩ := h
  exact (Cuts.Fenced.plain before).append (hinner.fenced.append (.plain after))

end Json

namespace Reference

/-- A reference that is read as the whole of a string literal. -/
def IsLiteral (reference : Reference) : Prop :=
  Json.IsContent reference.text reference.text

/-- No character of a reference is a backslash or a control character. -/
theorem plain_of_mem_text {reference : Reference} (h : reference.IsWellFormed) {character : Char}
    (hmem : character ∈ reference.text) : character ≠ '\\' ∧ ¬ character.toNat < 32 := by
  have hcontrol : ∀ code < 32, isForeign (Char.ofNat code) = true := by decide
  constructor
  · rintro rfl
    exact not_mem_text h (by decide) hmem
  · intro hlow
    have hforeign := hcontrol character.toNat hlow
    rw [Char.ofNat_toNat] at hforeign
    exact not_mem_text h hforeign hmem

/-- A reference is the whole of a string literal unless its key has a quote. -/
theorem is_literal_iff {reference : Reference} (h : reference.IsWellFormed) :
    reference.IsLiteral ↔ '"' ∉ reference.key := by
  have hread {front back : Text} (htext : reference.text = front ++ back) (hquote : '"' ∉ front)
      (opening rest : Text) :
      Json.readString opening [] (front ++ '"' :: rest) = .ok (front, rest) := by
    refine Json.read_string_verbatim (fun character hmem ↦ ⟨fun heq ↦ hquote (heq ▸ hmem), ?_⟩) _ _
    exact plain_of_mem_text h (by rw [htext]; exact List.mem_append_left _ hmem)
  constructor
  · intro hliteral hmem
    have hquote : '"' ∈ reference.text := by simp [text, hmem]
    obtain ⟨front, back, htext, hfirst⟩ := List.eq_append_cons_of_mem hquote
    have hwhole := hliteral [] []
    rw [htext, List.append_assoc, List.cons_append, hread htext hfirst] at hwhole
    exact absurd (Prod.mk.inj (Except.ok.inj hwhole)).2 (by simp)
  · intro hquote opening rest
    refine hread (List.append_nil _).symm (fun hmem ↦ ?_) opening rest
    have hparts : '"' ∈ reference.scope ∨ '"' ∈ reference.key := by
      simpa [text, mark, openBraces, closeBraces] using hmem
    rcases hparts with hscope | hkey
    · exact absurd (h.2.1 _ hscope) (by decide)
    · exact hquote hkey

end Reference

namespace Render

/-- The text that a string of linked data gets in place of a reference: the text of the dictionary, or
the reference itself. -/
def Dictionaries.shown (dictionaries : Dictionaries) (reference : Reference) : Text :=
  (dictionaries.locale.text? reference.scope reference.key).getD reference.text

/-- What is written for a reference in linked data is read as the text it gets. -/
theorem content_written (dictionaries : Dictionaries) {reference : Reference}
    (h : reference.IsLiteral) :
    Json.IsContent ((dictionaries.resolve reference).written escapeInScript)
      (dictionaries.shown reference) := by
  unfold Dictionaries.resolve Dictionaries.shown
  cases dictionaries.locale.text? reference.scope reference.key with
  | some text => exact content_escape_in_script text
  | none =>
      cases dictionaries.source.text? reference.scope reference.key with
      | some text => exact h
      | none => exact h

/-- What is written for a reference in linked data ends nothing. -/
theorem no_end_written (dictionaries : Dictionaries) {reference : Reference}
    (h : reference.IsWellFormed) :
    ¬ endMark <:+: (dictionaries.resolve reference).written escapeInScript := by
  have hreference : ¬ endMark <:+: reference.text := fun hends ↦
    Reference.not_mem_text h (show Reference.isForeign '<' = true by decide)
      (hends.subset (List.mem_cons_self ..))
  unfold Dictionaries.resolve
  cases dictionaries.locale.text? reference.scope reference.key with
  | some text => exact no_end_escape_in_script text
  | none =>
      cases dictionaries.source.text? reference.scope reference.key with
      | some text => exact hreference
      | none => exact hreference

/-- Take a block of linked data of the page in which the structural values are filled in, and let its
content be a JSON text in which every reference is the whole content of a string in the place of a value.
Then the rendered page has the block in the same place, with a body that is read as the value of the
block in which each of these strings is replaced by the text of the locale's dictionary, if there is
one. Every `</` of the body stands where the block has it. -/
theorem render_page_linked_data {registry : Registry} {page : Page} {locale : Locale} {template : Text}
    {earlier later : List (Text × Slot)} {before : Text} {slot : Slot} {shape : Json.Shape Reference}
    (dictionaries : Dictionaries)
    (hblock : (Cuts.all Extract.recognizeLinkedData (registry.fill page locale template)).found =
      earlier ++ (before, slot) :: later)
    (hshape : Json.Document Reference.IsLiteral shape (Cuts.all Reference.recognize slot.content)) :
    let tail := (Cuts.all Extract.recognizeLinkedData (registry.fill page locale template)).tail
    let written := fun reference ↦ (dictionaries.resolve reference).written escapeInScript
    let body := (Cuts.all Reference.recognize slot.content).text written
    (renderPage registry page locale dictionaries template).text =
        (renderCuts dictionaries ⟨earlier, before⟩).text ++ slot.withContent body ++
          (renderCuts dictionaries ⟨later, tail⟩).text ∧
      Json.parse slot.content = .ok (shape.fill Reference.text) ∧
      Json.parse body = .ok (shape.fill dictionaries.shown) ∧
      ∀ front back, body = front ++ endMark ++ back →
        ∃ first second : Cuts Reference,
          Cuts.all Reference.recognize slot.content = first.append ((Cuts.plain endMark).append second) ∧
          first.text written = front ∧ second.text written = back ∧
          slot.content = first.text Reference.text ++ endMark ++ second.text Reference.text := by
  intro tail written body
  refine ⟨render_cuts_found dictionaries hblock, ?_, ?_, ?_⟩
  · have hcontent := Reference.text_all slot.content
    rw [← hshape.parse_text fun reference hliteral ↦ hliteral, hcontent]
  · exact hshape.parse_text fun reference hliteral ↦ content_written dictionaries hliteral
  · intro front back hbody
    have hkeeps : Cuts.KeepsEnds written (Cuts.all Reference.recognize slot.content) :=
      hshape.fenced.keeps_ends fun reference hmem ↦
        no_end_written dictionaries (Reference.well_formed_of_mem hmem)
    obtain ⟨first, second, hcuts, hfront, hback⟩ := hkeeps front back hbody
    refine ⟨first, second, hcuts, hfront, hback, ?_⟩
    have hcontent := Reference.text_all slot.content
    rw [hcuts] at hcontent
    rw [← hcontent]
    simp

/-- Linked data with a text for one of two references, a text with quotes and an end tag. -/
theorem render_page_linked_data_teas :
    let english : Locale := ⟨"en".toList, [], "en_US".toList, "en".toList, "en".toList,
      "English".toList, [], none, []⟩
    let registry : Registry := ⟨[], [english], english⟩
    let page : Page := ⟨"home".toList, "home.html".toList, "home.html".toList, none⟩
    let template := ("<script type=\"application/ld+json\">[\"\x7b\x7bt.home.a\x7d\x7d\", " ++
      "\x7b\"b\": \"\x7b\x7bt.home.b\x7d\x7d\"\x7d, \"</p>\"]</script>").toList
    let texts : Dictionary :=
      [("home".toList, .object [("a".toList, .string "\"</script>\\".toList)])]
    let body := ("[\"\\\"<\\/script>\\\\\", \x7b\"b\": \"\x7b\x7bt.home.b\x7d\x7d\"\x7d, " ++
      "\"</p>\"]").toList
    (renderPage registry page english ⟨texts, texts⟩ template).text =
        "<script type=\"application/ld+json\">".toList ++ body ++ "</script>".toList ∧
      Json.parse body = .ok (.array [.string "\"</script>\\".toList,
        .object [("b".toList, .string "\x7b\x7bt.home.b\x7d\x7d".toList)],
        .string "</p>".toList]) := by
  intro english registry page template texts body
  let slot : Slot := ⟨"<script type=\"application/ld+json\">".toList,
    ("[\"\x7b\x7bt.home.a\x7d\x7d\", \x7b\"b\": \"\x7b\x7bt.home.b\x7d\x7d\"\x7d, " ++
      "\"</p>\"]").toList, "</script>".toList⟩
  have hblock : (Cuts.all Extract.recognizeLinkedData
      (registry.fill page english template)).found = [] ++ ([], slot) :: [] := by decide +kernel
  have hhome : Reference.IsName "home".toList := by decide
  have hliteral (key : Text) (h : Reference.IsName key ∧ '"' ∉ key) :
      Reference.IsLiteral ⟨"home".toList, key⟩ :=
    (Reference.is_literal_iff (Reference.IsPlain.is_well_formed ⟨hhome, h.1⟩)).mpr h.2
  have hname : Json.IsContent "b".toList "b".toList :=
    fun opening rest ↦ Json.read_string_verbatim (by simp) opening rest
  have hparagraph : Json.IsContent "</p>".toList "</p>".toList :=
    fun opening rest ↦ Json.read_string_verbatim (by simp) opening rest
  have hnone : Json.IsGap [] := by simp [Json.IsGap]
  have hblank : Json.IsGap [' '] := by simp [Json.IsGap, Json.isGap]
  have hfirst := hliteral "a".toList (by decide +kernel)
  have hsecond := hliteral "b".toList (by decide +kernel)
  have hspells := Json.Spells.array hnone (.item (.hole hfirst) hnone hblank
    (.item (.object hnone (.lastMember hname hnone hblank (.hole hsecond) hnone)) hnone hblank
      (.lastItem (.string hparagraph) hnone)))
  obtain ⟨htext, -, hbody, -⟩ := render_page_linked_data ⟨texts, texts⟩ hblock
    ⟨[], _, [], hnone, hnone, hspells, Cuts.ext (by decide +kernel) (by decide +kernel)⟩
  have hwritten : (Cuts.all Reference.recognize slot.content).text (fun reference ↦
      (Dictionaries.resolve ⟨texts, texts⟩ reference).written escapeInScript) = body := by
    decide +kernel
  rw [hwritten] at htext hbody
  have hshown : Dictionaries.shown ⟨texts, texts⟩ ⟨"home".toList, "a".toList⟩ =
      "\"</script>\\".toList := by decide +kernel
  have hkept : Dictionaries.shown ⟨texts, texts⟩ ⟨"home".toList, "b".toList⟩ =
      "\x7b\x7bt.home.b\x7d\x7d".toList := by decide +kernel
  refine ⟨htext.trans (by decide +kernel), hbody.trans ?_⟩
  simp only [Json.Shape.fill, Json.fillItems, Json.fillMembers, hshown, hkept]
  rfl

end Render

end LocalizedSite
