import LocalizedSite.Proofs.Extract.Framing

/-!
# Quotes before placeholders

`opened` counts the quotes of a text that have a placeholder right behind them. Filling a value of the
head adds one (`fills_head`), and putting text without quotes behind a slash or a bracket adds
none (`opened_insert`), so the passes that take no texts cannot undo each other.
-/

namespace LocalizedSite.Extract

open Slot

/-- The number of quotes with opening braces right behind them. -/
def opened : Text → Nat
  | [] => 0
  | character :: rest =>
    (if character = '"' ∧ Text.startsWith rest openBraces then 1 else 0) + opened rest

/-- Only a quote counts. -/
theorem opened_cons_of_ne {character : Char} (h : character ≠ '"') (rest : Text) :
    opened (character :: rest) = opened rest := by
  simp [opened, h]

/-- A text without quotes does not count. -/
theorem opened_append_of_not_mem {front : Text} (h : '"' ∉ front) (rest : Text) :
    opened (front ++ rest) = opened rest := by
  induction front with
  | nil => rfl
  | cons character front ih =>
      simp only [List.mem_cons, not_or] at h
      rw [List.cons_append, opened_cons_of_ne (Ne.symm h.1), ih h.2]

/-- Behind a character that is no brace nothing belongs to opening braces before it. -/
theorem starts_with_braces_append (front : Text) {character : Char} (h : character ≠ '\x7b')
    (rest : Text) :
    Text.startsWith (front ++ character :: rest) openBraces = Text.startsWith front openBraces := by
  have hne : ('\x7b' == character) = false := beq_eq_false_iff_ne.mpr (Ne.symm h)
  rcases front with _ | ⟨first, _ | ⟨second, front⟩⟩ <;>
    simp [Text.startsWith, openBraces, List.isPrefixOf, hne]

/-- What follows a character that is no brace counts apart from what stands before it. -/
theorem opened_append_congr (front : Text) {character : Char} (hcharacter : character ≠ '\x7b')
    {first second : Text} {more : Nat}
    (h : opened (character :: first) + more = opened (character :: second)) :
    opened (front ++ character :: first) + more = opened (front ++ character :: second) := by
  induction front with
  | nil => exact h
  | cons other front ih =>
      simp only [List.cons_append, opened, starts_with_braces_append front hcharacter]
      omega

/-- Text without quotes behind a character that is neither a quote nor a brace does not count. -/
theorem opened_insert (front : Text) {character : Char} (hbrace : character ≠ '\x7b')
    (hquote : character ≠ '"') {inserted : Text} (hinserted : '"' ∉ inserted) (back : Text) :
    opened (front ++ character :: (inserted ++ back)) = opened (front ++ character :: back) := by
  have hhere : opened (character :: back) + 0 = opened (character :: (inserted ++ back)) := by
    rw [Nat.add_zero, opened_cons_of_ne hquote, opened_cons_of_ne hquote,
      opened_append_of_not_mem hinserted]
  simpa using (opened_append_congr front hbrace hhere).symm

/-- A quoted value with a placeholder at its beginning counts one more than a value without. -/
theorem opened_fill (front : Text) {content value back filled : Text} (hcontent : '"' ∉ content)
    (hbraces : Text.startsWith content openBraces = false) (hvalue : '"' ∉ value)
    (hfilled : Text.startsWith value openBraces = true)
    (hback : opened ('"' :: back) = opened ('"' :: filled)) :
    opened (front ++ '"' :: (content ++ '"' :: back)) + 1 =
      opened (front ++ '"' :: (value ++ '"' :: filled)) := by
  refine opened_append_congr front (by decide) ?_
  have hopened (piece rest : Text) (hpiece : '"' ∉ piece) :
      opened ('"' :: (piece ++ '"' :: rest)) =
        (if Text.startsWith piece openBraces then 1 else 0) + opened ('"' :: rest) := by
    rw [opened, starts_with_braces_append piece (by decide), opened_append_of_not_mem hpiece]
    simp
  rw [hopened content back hcontent, hopened value filled hvalue, hbraces, hfilled, hback]
  simp [Nat.add_comm]

/-- A slot of an attribute value that does not begin with a placeholder. -/
structure IsValue (slot : Slot) : Prop where
  opening_ends : ∃ front, slot.opening = front ++ ['"']
  content_unquoted : '"' ∉ slot.content
  content_unfilled : Text.startsWith slot.content openBraces = false
  closing_begins : ∃ back, slot.closing = '"' :: back

/-- Reading an attribute value without a placeholder. -/
theorem unfilled_value {opening text rest : Text} {slot : Slot} (closing : Text)
    (hopening : ∃ front, opening = front ++ ['"'])
    (h : unfilled (Slot.run opening (· != '"') ('"' :: closing)) text = some (slot, rest)) :
    text = slot.text ++ rest ∧ IsValue slot ∧ slot.closing = '"' :: closing := by
  obtain ⟨hrun, hunfilled⟩ := Option.filter_eq_some_iff.mp h
  obtain ⟨rfl, hclosing, htext, hcontent⟩ := run_eq_some hrun
  refine ⟨htext, ⟨hopening, fun hmem ↦ ?_, by simpa using hunfilled, closing, hclosing⟩, hclosing⟩
  simpa using hcontent '"' hmem

/-- The search for a `lang` attribute finds an attribute value without a placeholder behind all that it
passed. -/
theorem language_from_cases {previous : Char} {passed text rest : Text} {slot : Slot}
    (h : languageFrom previous passed text = some (slot, rest)) :
    ∃ front following value, passed.reverse ++ text = front ++ following ∧
      unfilled (recognizeValue "lang=\"".toList) following = some (value, rest) ∧
      slot = value.extendOpening front := by
  induction text generalizing previous passed with
  | nil => exact absurd h (by simp [languageFrom])
  | cons character text ih =>
      simp only [languageFrom] at h
      split at h
      · next value following hhere =>
          obtain ⟨rfl, rfl⟩ := Prod.mk.inj (Option.some.inj h)
          split at hhere
          · exact absurd hhere (by simp)
          · exact ⟨passed.reverse, character :: text, value, rfl, hhere, rfl⟩
      · split at h
        · exact absurd h (by simp)
        · obtain ⟨front, following, value, htext, hvalue⟩ := ih h
          exact ⟨front, following, value, by simpa using htext, hvalue⟩

/-- The language of a document is read from the first `lang` attribute without a placeholder. -/
theorem recognize_language_cases {text rest : Text} {slot : Slot}
    (h : recognizeLanguage text = some (slot, rest)) :
    ∃ front following value, text = front ++ following ∧
      unfilled (recognizeValue "lang=\"".toList) following = some (value, rest) ∧
      slot = value.extendOpening front := by
  simp only [recognizeLanguage, bind, Option.bind_eq_some_iff] at h
  obtain ⟨inside, hopening, h⟩ := h
  split at h
  · exact absurd h (by simp)
  · simp only [Option.bind_eq_some_iff] at h
    obtain ⟨⟨found, behind⟩, hlanguage, h⟩ := h
    obtain ⟨rfl, rfl⟩ := by simpa using h
    obtain ⟨front, following, value, hinside, hvalue, rfl⟩ := language_from_cases hlanguage
    refine ⟨"<html".toList ++ front, following, value, ?_, hvalue, by simp [Slot.extendOpening]⟩
    rw [Text.after_eq_some.mp hopening, List.append_assoc, ← hinside]
    rfl

/-- The language of a document is an attribute value without a placeholder. -/
theorem recognize_language_eq_some {text rest : Text} {slot : Slot}
    (h : recognizeLanguage text = some (slot, rest)) :
    text = slot.text ++ rest ∧ IsValue slot ∧ slot.closing = ['"'] := by
  obtain ⟨front, following, value, rfl, hread, rfl⟩ := recognize_language_cases h
  obtain ⟨rfl, hvalue, hclosing⟩ := unfilled_value [] ⟨"lang=".toList, by decide⟩ hread
  obtain ⟨inner, hinner⟩ := hvalue.opening_ends
  refine ⟨by simp, ⟨⟨front ++ inner, ?_⟩, hvalue.content_unquoted, hvalue.content_unfilled,
    hvalue.closing_begins⟩, hclosing⟩
  simp [Slot.extendOpening, hinner]

/-- The tag behind a value ends without a quote or a brace. -/
def EndsTag (closing : Text) : Prop :=
  ∃ back, closing = '"' :: back ∧ back ≠ [] ∧
    ∀ character ∈ back, character ≠ '"' ∧ character ≠ '\x7b'

/-- The tag may end right behind the value. -/
theorem ends_tag_close : EndsTag ['"', '>'] :=
  ⟨['>'], rfl, by simp, by simp⟩

/-- The end of a tag behind a value does not count. -/
theorem opened_of_ends_tag {closing : Text} (h : EndsTag closing) (rest : Text) :
    opened (closing ++ rest) = opened rest := by
  obtain ⟨back, rfl, hne, hback⟩ := h
  obtain ⟨first, others, rfl⟩ := List.exists_cons_of_ne_nil hne
  have hunquoted : '"' ∉ first :: others := fun hmem ↦ (hback _ hmem).1 rfl
  have hbrace : ('\x7b' == first) = false :=
    beq_eq_false_iff_ne.mpr (Ne.symm (hback first (List.mem_cons_self ..)).2)
  have hstart : Text.startsWith (first :: others ++ rest) openBraces = false := by
    simp [Text.startsWith, openBraces, List.isPrefixOf, hbrace]
  rw [List.cons_append, opened, hstart, opened_append_of_not_mem hunquoted]
  simp

/-- A recogniser of attribute values without placeholders that reads to the end of the tag. -/
def Fillable (recognize : Recognizer Slot) : Prop :=
  ∀ text slot rest, recognize text = some (slot, rest) →
    text = slot.text ++ rest ∧ IsValue slot ∧ EndsTag slot.closing

theorem fillable_canonical : Fillable recognizeCanonical := by
  intro text slot rest h
  obtain ⟨htext, hvalue, hclosing⟩ :=
    unfilled_value ['>'] ⟨"<link rel=\"canonical\" href=".toList, by decide⟩ h
  exact ⟨htext, hvalue, hclosing ▸ ends_tag_close⟩

/-- A property is a value, and behind it blanks and perhaps a slash in front of the end of the tag. -/
theorem recognize_property_cases {opening text rest : Text} {slot : Slot}
    (h : recognizeProperty opening text = some (slot, rest)) :
    ∃ value blanks slash,
      unfilled (recognizeValue opening) text = some (value, blanks ++ (slash ++ '>' :: rest)) ∧
      (∀ character ∈ blanks, Text.isBlank character = true) ∧ (∀ character ∈ slash, character = '/') ∧
      slot = { value with closing := value.closing ++ (blanks ++ slash ++ ['>']) } := by
  simp only [recognizeProperty, bind, Option.bind_eq_some_iff] at h
  obtain ⟨⟨value, following⟩, hread, h⟩ := h
  rcases hblanks : following.span Text.isBlank with ⟨blanks, afterBlanks⟩
  rcases hslash : afterBlanks.span (· == '/') with ⟨slash, afterSlash⟩
  simp only [hblanks, hslash] at h
  obtain ⟨last, hend, h⟩ := h
  obtain ⟨rfl, hblank, -⟩ := Text.span_spec hblanks
  obtain ⟨rfl, hslashes, -⟩ := Text.span_spec hslash
  split at h
  · exact absurd h (by simp)
  · obtain ⟨rfl, rfl⟩ := by simpa using h
    obtain rfl := Text.after_eq_some.mp hend
    exact ⟨value, blanks, slash, hread, hblank, fun character hmem ↦ by simpa using hslashes character hmem,
      by simp⟩

theorem fillable_property {opening : Text} (hopening : ∃ front, opening = front ++ ['"']) :
    Fillable (recognizeProperty opening) := by
  intro text slot rest h
  obtain ⟨value, blanks, slash, hread, hblank, hslashes, rfl⟩ := recognize_property_cases h
  obtain ⟨rfl, hvalue, hclosing⟩ := unfilled_value [] hopening hread
  have hquote : Text.isBlank '"' = false := by decide
  have hbrace : Text.isBlank '\x7b' = false := by decide
  refine ⟨by simp [Slot.text_eq], ⟨hvalue.opening_ends, hvalue.content_unquoted,
    hvalue.content_unfilled, blanks ++ slash ++ ['>'], by simp [hclosing]⟩, blanks ++ slash ++ ['>'],
    by simp [hclosing], by simp, fun character hmem ↦ ?_⟩
  simp only [List.mem_append, List.mem_singleton] at hmem
  rcases hmem with (hmem | hmem) | rfl
  · have hcharacter := hblank character hmem
    exact ⟨fun heq ↦ by simp [heq, hquote] at hcharacter,
      fun heq ↦ by simp [heq, hbrace] at hcharacter⟩
  · obtain rfl := hslashes character hmem
    decide
  · decide

/-- A structural placeholder has no quote, and it begins with the opening braces. -/
theorem structural_text_spec (value : Structural) :
    '"' ∉ value.text ∧ Text.startsWith value.text openBraces = true := by
  cases value <;> decide

/-- A rewriting leaves the settled documents alone and puts a placeholder behind a quote of every
other. -/
structure FillsUnless (settled : Text → Prop) (fill : Text → Text) : Prop where
  stays : ∀ html, settled html → fill html = html
  fills : ∀ html, ¬ settled html → opened html < opened (fill html)

namespace FillsUnless

variable {settled : Text → Prop} {fill : Text → Text}

/-- Such a rewriting removes no placeholder behind a quote. -/
theorem opened_le (h : FillsUnless settled fill) (html : Text) :
    opened html ≤ opened (fill html) := by
  by_cases hsettled : settled html
  · rw [h.stays html hsettled]
  · exact (h.fills html hsettled).le

/-- If it adds none, the document is settled. -/
theorem settled_of_le (h : FillsUnless settled fill) {html : Text}
    (hle : opened (fill html) ≤ opened html) : settled html := by
  by_contra hsettled
  have hfills := h.fills html hsettled
  omega

/-- One rewriting after the other leaves alone what both of them do. -/
theorem comp {other : Text → Prop} {refill : Text → Text} (hfirst : FillsUnless settled fill)
    (hsecond : FillsUnless other refill) :
    FillsUnless (fun html ↦ settled html ∧ other html) fun html ↦ refill (fill html) := by
  refine ⟨fun html h ↦ ?_, fun html h ↦ ?_⟩
  · rw [hfirst.stays html h.1, hsecond.stays html h.2]
  · by_cases hsettled : settled html
    · rw [hfirst.stays html hsettled]
      exact hsecond.fills html fun hother ↦ h ⟨hsettled, hother⟩
    · exact (hfirst.fills html hsettled).trans_le (hsecond.opened_le (fill html))

end FillsUnless

/-- A language without a placeholder is filled. -/
theorem fills_language :
    FillsUnless (fun html ↦ recognizeLanguage.first? html = none) fillLanguage := by
  refine ⟨fun html h ↦ by simp [fillLanguage, h], fun html h ↦ ?_⟩
  cases hfirst : recognizeLanguage.first? html with
  | none => exact absurd hfirst h
  | some result =>
      obtain ⟨before, slot, rest⟩ := result
      obtain ⟨occurrence, rfl, hread, -⟩ := Recognizer.first_eq_some hfirst
      obtain ⟨rfl, hvalue, hclosing⟩ := recognize_language_eq_some hread
      obtain ⟨front, hfront⟩ := hvalue.opening_ends
      have hplaceholder := structural_text_spec .htmlLang
      have hfill := opened_fill (before ++ front) hvalue.content_unquoted hvalue.content_unfilled
        hplaceholder.1 hplaceholder.2 (show opened ('"' :: rest) = _ from rfl)
      have hmore : opened (fillLanguage (before ++ (slot.text ++ rest))) =
          opened (before ++ (slot.text ++ rest)) + 1 := by
        simp only [fillLanguage, hfirst]
        simpa [Slot.text_eq, withContent, hfront, hclosing] using hfill.symm
      omega

/-- A value of the head without a placeholder is filled. -/
theorem fills_first {recognize : Recognizer Slot} (hfillable : Fillable recognize)
    (value : Structural) {added : Text} (hadded : '"' ∉ added) :
    FillsUnless (fun html ↦ recognize.first? html = none) (fillFirst recognize value added) := by
  refine ⟨fun html h ↦ by simp [fillFirst, h], fun html h ↦ ?_⟩
  cases hfirst : recognize.first? html with
  | none => exact absurd hfirst h
  | some result =>
      obtain ⟨before, slot, rest⟩ := result
      obtain ⟨occurrence, rfl, hread, -⟩ := Recognizer.first_eq_some hfirst
      obtain ⟨rfl, hvalue, hclosing⟩ := hfillable _ _ _ hread
      obtain ⟨front, hfront⟩ := hvalue.opening_ends
      obtain ⟨back, hback⟩ := hvalue.closing_begins
      have hplaceholder := structural_text_spec value
      have hends : EndsTag ('"' :: '>' :: []) := ends_tag_close
      have hrest : opened ('"' :: (back ++ rest)) = opened ('"' :: ('>' :: (added ++ rest))) := by
        have hold := opened_of_ends_tag hclosing rest
        have hnew := opened_of_ends_tag hends (added ++ rest)
        rw [opened_append_of_not_mem hadded] at hnew
        rw [hback] at hold
        exact hold.trans hnew.symm
      have hfill := opened_fill (before ++ front) hvalue.content_unquoted hvalue.content_unfilled
        hplaceholder.1 hplaceholder.2 hrest
      have hmore : opened (fillFirst recognize value added (before ++ (slot.text ++ rest))) =
          opened (before ++ (slot.text ++ rest)) + 1 := by
        simp only [fillFirst, hfirst]
        simpa [Slot.text_eq, hfront, hback] using hfill.symm
      omega

/-- No value of the head is left to fill. -/
structure HeadFilled (html : Text) : Prop where
  language : recognizeLanguage.first? html = none
  canonical : recognizeCanonical.first? html = none
  page_url : (recognizeProperty "<meta property=\"og:url\" content=\"".toList).first? html = none
  twitter_url :
    (recognizeProperty "<meta name=\"twitter:url\" content=\"".toList).first? html = none
  og_locale :
    (recognizeProperty "<meta property=\"og:locale\" content=\"".toList).first? html = none

/-- A head is filled unless all its values have placeholders. -/
theorem fills_head : FillsUnless HeadFilled fillHead := by
  have hproperty (opening : Text) (hopening : ∃ front, opening = front ++ ['"'])
      (value : Structural) {added : Text} (hadded : '"' ∉ added) :
      FillsUnless (fun html ↦ (recognizeProperty opening).first? html = none)
        (fillFirst (recognizeProperty opening) value added) :=
    fills_first (fillable_property hopening) value hadded
  have hcanonical := fills_language.comp
    (fills_first fillable_canonical .canonicalUrl (show '"' ∉ headLine .hreflangTags by decide))
  have hpage := hcanonical.comp (hproperty "<meta property=\"og:url\" content=\"".toList
    ⟨"<meta property=\"og:url\" content=".toList, by decide⟩ .pageUrl (show '"' ∉ [] by simp))
  have htwitter := hpage.comp (hproperty "<meta name=\"twitter:url\" content=\"".toList
    ⟨"<meta name=\"twitter:url\" content=".toList, by decide⟩ .pageUrl (show '"' ∉ [] by simp))
  have hlocale := htwitter.comp (hproperty "<meta property=\"og:locale\" content=\"".toList
    ⟨"<meta property=\"og:locale\" content=".toList, by decide⟩ .ogLocale
    (show '"' ∉ headLine .ogLocaleAlternates by decide))
  refine ⟨fun html h ↦ ?_, fun html h ↦ ?_⟩
  · exact hlocale.stays html ⟨⟨⟨⟨h.language, h.canonical⟩, h.page_url⟩, h.twitter_url⟩, h.og_locale⟩
  · refine hlocale.fills html fun hall ↦ h ?_
    obtain ⟨⟨⟨⟨hlanguage, hlink⟩, hurl⟩, hcard⟩, hog⟩ := hall
    exact ⟨hlanguage, hlink, hurl, hcard, hog⟩

end LocalizedSite.Extract
