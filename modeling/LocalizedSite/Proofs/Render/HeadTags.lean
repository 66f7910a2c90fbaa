import LocalizedSite.Proofs.Extract.HeadMarks
import LocalizedSite.Proofs.Html.Entity
import LocalizedSite.Proofs.Render.OnePass

/-!
# The tags of the head in a rendered page

Where both marks of the head stand in a template, the page rendered from it has the language of the locale
in its attribute, the page's address in the canonical link, and behind it the links to all versions;
what stands before, between and behind the marks is rendered by itself (`render_page_head`).
-/

namespace LocalizedSite.Render

open Extract Cuts

section Filling

variable {registry : Registry} {page : Page} {locale : Locale}

theorem structural_reads_written :
    Structural.recognize.ReadsWritten Structural.text fun _ ↦ True :=
  ⟨Structural.consuming_recognize, by simp [Structural.recognize_eq_some]⟩

/-- Two texts are filled in one after the other, if no structural placeholder straddles the seam. -/
theorem fill_seam {front back : Text}
    (h : ¬ Straddles Structural.text (fun _ ↦ True) front back) :
    registry.fill page locale (front ++ back) =
      registry.fill page locale front ++ registry.fill page locale back := by
  simp only [Registry.fill, all_append structural_reads_written h, text_append]

/-- A placeholder in front is filled in. -/
theorem fill_value (value : Structural) (back : Text) :
    registry.fill page locale (value.text ++ back) =
      registry.value page locale value ++ registry.fill page locale back :=
  text_all_of_some Structural.consuming_recognize _ (Structural.recognize_text value back)

/-- A placeholder between texts without braces is filled in. -/
theorem fill_between {before behind : Text} (hbefore : '\x7b' ∉ before) (hbehind : '\x7b' ∉ behind)
    (value : Structural) (back : Text) :
    registry.fill page locale (before ++ value.text ++ behind ++ back) =
      before ++ registry.value page locale value ++ behind ++ registry.fill page locale back := by
  rw [List.append_assoc, List.append_assoc, fill_append _ _ _ hbefore, fill_value,
    fill_append _ _ _ hbehind]
  simp

/-- The `lang` attribute with a language. -/
def languageAttribute (language : Text) : Text :=
  "lang=\"".toList ++ language ++ ['"']

/-- The canonical link with an address, and the links behind it. -/
def canonicalLines (address links : Text) : Text :=
  "<link rel=\"canonical\" href=\"".toList ++ address ++ "\">".toList ++ (headBreak ++ links)

/-- No structural placeholder has an equals sign or an angle bracket. -/
theorem not_mem_structural {character : Char} (h : character = '=' ∨ character = '<')
    (value : Structural) : character ∉ value.text := by
  rcases h with rfl | rfl <;> cases value <;> decide

/-- No structural placeholder goes on in the first mark. -/
theorem not_straddles_language (front back : Text) :
    ¬ Straddles Structural.text (fun _ ↦ True) front (languageMark ++ back) := by
  have hlast : ∀ value : Structural, True → value.text.getLast? = some '\x7d' := by
    intro value _
    cases value <;> decide
  have hmark : languageMark = "lang".toList ++ '=' :: languageMark.drop 5 := by decide +kernel
  rw [hmark, List.append_assoc, List.cons_append]
  exact not_straddles_of_lead hlast (by decide) (fun value _ ↦ not_mem_structural (.inl rfl) value) _ _

/-- No structural placeholder goes on in the second mark. -/
theorem not_straddles_canonical (front back : Text) :
    ¬ Straddles Structural.text (fun _ ↦ True) front (canonicalMark ++ back) := by
  have hmark : canonicalMark = '<' :: canonicalMark.tail := by decide +kernel
  rw [hmark, List.cons_append]
  exact not_straddles_of_head (fun value _ ↦ not_mem_structural (.inr rfl) value) _ _

/-- The first mark is filled in. -/
theorem fill_language_mark (back : Text) :
    registry.fill page locale (languageMark ++ back) =
      languageAttribute locale.htmlLang ++ registry.fill page locale back :=
  fill_between (by decide) (by decide) .htmlLang back

/-- The second mark is filled in. -/
theorem fill_canonical_mark (back : Text) :
    registry.fill page locale (canonicalMark ++ back) =
      canonicalLines (registry.pageUrl page locale) (registry.hreflangTags page) ++
        registry.fill page locale back := by
  have hline : registry.fill page locale (headLine .hreflangTags ++ back) =
      headBreak ++ registry.hreflangTags page ++ registry.fill page locale back := by
    unfold headLine
    rw [List.append_assoc, fill_append _ _ _ (by decide), fill_value, List.append_assoc]
    rfl
  have hlink : registry.fill page locale ("<link rel=\"canonical\" href=\"".toList ++
      Structural.text .canonicalUrl ++ "\">".toList ++ (headLine .hreflangTags ++ back)) = _ :=
    fill_between (by decide) (by decide) .canonicalUrl _
  rw [hline, ← List.append_assoc, ← List.append_assoc] at hlink
  exact hlink

/-- Where both marks of the head stand in a template, they are filled in, and the rest by itself. -/
theorem fill_head_marks (front middle back : Text) :
    registry.fill page locale (front ++ (languageMark ++ (middle ++ (canonicalMark ++ back)))) =
      registry.fill page locale front ++ (languageAttribute locale.htmlLang ++
        (registry.fill page locale middle ++
          (canonicalLines (registry.pageUrl page locale) (registry.hreflangTags page) ++
            registry.fill page locale back))) := by
  rw [fill_seam (not_straddles_language _ _), fill_language_mark, fill_seam (not_straddles_canonical _ _),
    fill_canonical_mark]

end Filling

section Parts

variable {dictionaries : Dictionaries} {whole : Text}

/-- A part of a page with its references resolved; `passed` is the number of characters before the part. -/
def renderPart (dictionaries : Dictionaries) (whole : Text) (passed : Nat) (part : Text) : Text :=
  resolveAt dictionaries (fun place ↦ formAt whole (place.behind passed))
    (Cuts.all Reference.recognize part)

/-- A page is rendered as the part that it is of itself. -/
theorem render_filled_eq (dictionaries : Dictionaries) (whole : Text) :
    (renderFilled dictionaries whole).text = renderPart dictionaries whole 0 whole := by
  rw [render_filled_one_pass, renderPart]
  simp [Placed.behind]

/-- Two parts are rendered one after the other, if no reference straddles the seam. -/
theorem render_part_append {front back : Text} (h : ¬ Reference.Straddles front back) (passed : Nat) :
    renderPart dictionaries whole passed (front ++ back) =
      renderPart dictionaries whole passed front ++
        renderPart dictionaries whole (passed + front.length) back := by
  simp only [renderPart, Reference.all_append h, resolve_at_append, Reference.text_all, Placed.behind,
    Nat.add_assoc]

/-- A part without placeholders stays. -/
theorem render_part_plain {part : Text} (h : Placeholder.occursIn part = false) (passed : Nat) :
    renderPart dictionaries whole passed part = part := by
  rw [renderPart, all_of_literal (fun _ ↦ Reference.recognize_eq_none) h]
  exact text_at_plain _ part

end Parts

section Head

/-- The texts around the two tags of a head. -/
structure HeadParts where
  /-- What stands before the `lang` attribute. -/
  front : Text
  /-- What stands between the attribute and the canonical link. -/
  middle : Text
  /-- What stands behind the links to the versions of the page. -/
  back : Text
deriving DecidableEq, Repr

/-- The texts around the marks of a template. -/
def cutHead? (template : Text) : Option HeadParts := do
  let (front, behind) ← Text.cut? languageMark template
  let (middle, back) ← Text.cut? canonicalMark behind
  return ⟨front, middle, back⟩

/-- The page with a language, the address of a canonical link and links behind it. -/
def HeadParts.page (parts : HeadParts) (language address links : Text) : Text :=
  parts.front ++ (languageAttribute language ++
    (parts.middle ++ (canonicalLines address links ++ parts.back)))

/-- The texts around the marks with their structural placeholders filled in. -/
def HeadParts.fill (parts : HeadParts) (registry : Registry) (page : Page) (locale : Locale) :
    HeadParts :=
  ⟨registry.fill page locale parts.front, registry.fill page locale parts.middle,
    registry.fill page locale parts.back⟩

/-- The texts around the two tags of the rendered page. -/
def HeadParts.render (parts : HeadParts) (registry : Registry) (page : Page) (locale : Locale)
    (dictionaries : Dictionaries) : HeadParts :=
  let filled := parts.fill registry page locale
  let language := languageAttribute locale.htmlLang
  let lines := canonicalLines (registry.pageUrl page locale) (registry.hreflangTags page)
  let whole :=
    filled.page locale.htmlLang (registry.pageUrl page locale) (registry.hreflangTags page)
  let behind := filled.front.length + language.length
  ⟨renderPart dictionaries whole 0 filled.front, renderPart dictionaries whole behind filled.middle,
    renderPart dictionaries whole (behind + filled.middle.length + lines.length) filled.back⟩

variable {registry : Registry} {page : Page} {locale : Locale}

/-- Where the marks stand in a template, it can be cut there. -/
theorem exists_cut_head {template : Text} (h : HasMarks headMarks template) :
    ∃ parts, cutHead? template = some parts := by
  obtain ⟨front, behind, middle, back, hfirst, hsecond⟩ := h.exists_cut
  exact ⟨⟨front, middle, back⟩, by simp [cutHead?, hfirst, hsecond]⟩

/-- A template that is cut at its marks is filled in part by part. -/
theorem fill_head {template : Text} {parts : HeadParts} (h : cutHead? template = some parts) :
    registry.fill page locale template = (parts.fill registry page locale).page locale.htmlLang
      (registry.pageUrl page locale) (registry.hreflangTags page) := by
  simp only [cutHead?, bind, Option.bind_eq_some_iff] at h
  obtain ⟨⟨front, behind⟩, hfirst, ⟨middle, back⟩, hsecond, h⟩ := h
  obtain rfl := Option.some.inj h
  have htemplate : template = front ++ (languageMark ++ (middle ++ (canonicalMark ++ back))) := by
    rw [Text.cut_eq_some hfirst, show behind = _ from Text.cut_eq_some hsecond]
    simp only [List.append_assoc]
  rw [htemplate]
  exact fill_head_marks front middle back

/-- No reference goes on in the `lang` attribute. -/
theorem not_straddles_attribute (front language back : Text) :
    ¬ Reference.Straddles front (languageAttribute language ++ back) := by
  have hattribute : languageAttribute language ++ back =
      "lang".toList ++ '=' :: ('"' :: (language ++ ['"'] ++ back)) := rfl
  have hlast : ∀ reference : Reference, reference.IsWellFormed →
      reference.text.getLast? = some '\x7d' := fun reference _ ↦
    Placeholder.getLast_text (.reference reference)
  rw [hattribute]
  exact not_straddles_of_lead hlast (by decide)
    (fun _ hwell ↦ Reference.not_mem_text hwell (by decide)) _ _

/-- No reference goes on in the canonical link. -/
theorem not_straddles_lines (front address links back : Text) :
    ¬ Reference.Straddles front (canonicalLines address links ++ back) := by
  have hlines : canonicalLines address links ++ back = '<' :: ("link rel=\"canonical\" href=\"".toList ++
      address ++ "\">".toList ++ (headBreak ++ links) ++ back) := rfl
  rw [hlines]
  exact Reference.not_straddles_of_head (by decide) _ _

/-- The parts of a page whose tags have no placeholders are rendered one by one. -/
theorem render_head_parts (dictionaries : Dictionaries) (whole : Text) (parts : HeadParts)
    {language address links : Text} (hlanguage : Placeholder.occursIn (languageAttribute language) = false)
    (hlines : Placeholder.occursIn (canonicalLines address links) = false)
    (hlinks : ∃ front, links = front ++ ['>']) :
    let behind := parts.front.length + (languageAttribute language).length
    renderPart dictionaries whole 0 (parts.page language address links) =
      HeadParts.page ⟨renderPart dictionaries whole 0 parts.front,
        renderPart dictionaries whole behind parts.middle,
        renderPart dictionaries whole
          (behind + parts.middle.length + (canonicalLines address links).length) parts.back⟩
        language address links := by
  intro behind
  obtain ⟨front, rfl⟩ := hlinks
  have hquote : (languageAttribute language).getLast? ≠ some '\x7b' := by
    unfold languageAttribute
    rw [List.getLast?_append_of_ne_nil _ (by simp)]
    decide
  have hend : (canonicalLines address (front ++ ['>'])).getLast? ≠ some '\x7b' := by
    unfold canonicalLines
    rw [List.getLast?_append_of_ne_nil _ (by simp), List.getLast?_append_of_ne_nil _ (by simp),
      List.getLast?_append_of_ne_nil _ (by simp)]
    decide
  simp only [HeadParts.page]
  rw [render_part_append (not_straddles_attribute _ _ _),
    render_part_append (Reference.not_straddles_of_literal hlanguage hquote _),
    render_part_append (not_straddles_lines _ _ _ _),
    render_part_append (Reference.not_straddles_of_literal hlines hend _),
    render_part_plain hlanguage, render_part_plain hlines, Nat.zero_add]

end Head

section Values

/-- Two texts without placeholders have none together, if the second begins with no brace. -/
theorem literal_append {front back : Text} (hfront : Placeholder.occursIn front = false)
    (hback : Placeholder.occursIn back = false) (hhead : back.head? ≠ some '\x7b') :
    Placeholder.occursIn (front ++ back) = false := by
  cases back with
  | nil => rwa [List.append_nil]
  | cons character back =>
      have hcharacter : character ∉ openBraces := by simpa [openBraces] using hhead
      rw [Placeholder.occurs_in_eq_false] at hfront ⊢
      rw [Text.infix_append_cons_iff hcharacter]
      exact not_or.mpr ⟨hfront, Placeholder.occurs_in_eq_false.mp (Placeholder.occurs_in_cons.mp hback).2⟩

/-- What is written for a character begins with a brace only if it is one. -/
theorem head_escape_markup (text : Text) :
    (escapeMarkup text).head? = some '\x7b' → text.head? = some '\x7b' := by
  cases text with
  | nil => exact id
  | cons character text =>
      have hescape : escapeMarkup (character :: text) =
          escapeMarkupCharacter character ++ escapeMarkup text := rfl
      rw [hescape]
      unfold escapeMarkupCharacter
      split_ifs <;> simp

/-- An escaped text has no placeholder that the text has not. -/
theorem literal_escape_markup {text : Text} (h : Placeholder.occursIn text = false) :
    Placeholder.occursIn (escapeMarkup text) = false := by
  induction text with
  | nil => rfl
  | cons character text ih =>
      obtain ⟨hbrace, htext⟩ := Placeholder.occurs_in_cons.mp h
      have hescape : escapeMarkup (character :: text) =
          escapeMarkupCharacter character ++ escapeMarkup text := rfl
      have hrest := ih htext
      rw [hescape]
      unfold escapeMarkupCharacter
      split_ifs
      · exact Placeholder.occurs_in_append_of_not_mem (by decide) hrest
      · exact Placeholder.occurs_in_append_of_not_mem (by decide) hrest
      · exact Placeholder.occurs_in_append_of_not_mem (by decide) hrest
      · exact Placeholder.occurs_in_append_of_not_mem (by decide) hrest
      · exact Placeholder.occurs_in_append_of_not_mem (by decide) hrest
      · exact Placeholder.occurs_in_cons.mpr
          ⟨fun hhere hhead ↦ hbrace hhere (head_escape_markup text hhead), hrest⟩

/-- The language stands between quotes. -/
theorem literal_language_attribute {language : Text} (h : Placeholder.occursIn language = false) :
    Placeholder.occursIn (languageAttribute language) = false :=
  Placeholder.occurs_in_append_of_not_mem_right (by decide)
    (Placeholder.occurs_in_append_of_not_mem (by decide) h)

/-- The address of the canonical link stands between quotes, and the links behind a line break. -/
theorem literal_canonical_lines {address links : Text}
    (haddress : Placeholder.occursIn address = false) (hlinks : Placeholder.occursIn links = false) :
    Placeholder.occursIn (canonicalLines address links) = false := by
  have hfront : Placeholder.occursIn ("<link rel=\"canonical\" href=\"".toList ++ address) = false :=
    Placeholder.occurs_in_append_of_not_mem (by decide) haddress
  have hlink : Placeholder.occursIn
      ("<link rel=\"canonical\" href=\"".toList ++ address ++ "\">".toList) = false :=
    Placeholder.occurs_in_append_of_not_mem_right (by decide) hfront
  have hbehind : Placeholder.occursIn (headBreak ++ links) = false :=
    Placeholder.occurs_in_append_of_not_mem (by decide) hlinks
  exact literal_append hlink hbehind (by rw [List.head?_append_of_ne_nil _ (by decide)]; decide)

/-- A link to a version of a page has no placeholder that its values have not. -/
theorem literal_alternate_tag {alternate : Alternate}
    (hlanguage : Placeholder.occursIn alternate.hreflang = false)
    (haddress : Placeholder.occursIn alternate.href = false) :
    Placeholder.occursIn (Registry.alternateTag alternate) = false := by
  have hfront : Placeholder.occursIn
      ("<link rel=\"alternate\" hreflang=\"".toList ++ escapeMarkup alternate.hreflang) = false :=
    Placeholder.occurs_in_append_of_not_mem (by decide) (literal_escape_markup hlanguage)
  have hback : Placeholder.occursIn ("\" href=\"".toList ++ escapeMarkup alternate.href) = false :=
    Placeholder.occurs_in_append_of_not_mem (by decide) (literal_escape_markup haddress)
  have hboth := literal_append hfront hback
    (by rw [List.head?_append_of_ne_nil _ (by decide)]; decide)
  rw [← List.append_assoc] at hboth
  exact Placeholder.occurs_in_append_of_not_mem_right (by decide) hboth

/-- The links to the versions of a page have no placeholders that the values of the registry have not. -/
theorem literal_hreflang_tags {registry : Registry} {page : Page}
    (h : ∀ alternate ∈ registry.alternates page, Placeholder.occursIn alternate.hreflang = false ∧
      Placeholder.occursIn alternate.href = false) :
    Placeholder.occursIn (registry.hreflangTags page) = false := by
  rw [Placeholder.occurs_in_eq_false]
  intro hbraces
  obtain ⟨tag, hmem, htag⟩ := (Text.infix_join_with_iff
    (show ∀ found ∈ Registry.headSeparator, found ∉ openBraces by
      simp [Registry.headSeparator, openBraces])).mp hbraces
  obtain ⟨alternate, halternate, rfl⟩ := List.mem_map.mp hmem
  obtain ⟨hlanguage, haddress⟩ := h alternate halternate
  exact Placeholder.occurs_in_eq_false.mp (literal_alternate_tag hlanguage haddress) htag

/-- The last link ends with its tag. -/
theorem hreflang_tags_end (registry : Registry) (page : Page) :
    ∃ front, registry.hreflangTags page = front ++ ['>'] := by
  have htags : registry.hreflangTags page = Text.joinWith Registry.headSeparator
      ((registry.versions page).map Registry.alternateTag ++
        [Registry.alternateTag ⟨defaultLanguage, registry.defaultUrl page⟩]) := by
    rw [← List.map_singleton, ← List.map_append]
    rfl
  obtain ⟨front, hfront⟩ := Text.suffix_join_with Registry.headSeparator
    (Registry.alternateTag ⟨defaultLanguage, registry.defaultUrl page⟩)
    ((registry.versions page).map Registry.alternateTag)
  have hlast (alternate : Alternate) : ∃ before, Registry.alternateTag alternate = before ++ ['>'] :=
    ⟨"<link rel=\"alternate\" hreflang=\"".toList ++ escapeMarkup alternate.hreflang ++
      "\" href=\"".toList ++ escapeMarkup alternate.href ++ ['"'], by
        unfold Registry.alternateTag
        rw [List.append_assoc _ ['"'], show ['"'] ++ ['>'] = "\">".toList from rfl]⟩
  obtain ⟨before, hbefore⟩ := hlast ⟨defaultLanguage, registry.defaultUrl page⟩
  exact ⟨front ++ before, by rw [htags, ← hfront, hbefore, List.append_assoc]⟩

end Values

/-- Where the marks stand in a template, the rendered page has the tags of the locale in their places. The
values of the registry have no placeholders. -/
theorem render_page_head {registry : Registry} {page : Page} {locale : Locale}
    (dictionaries : Dictionaries) {template : Text} {parts : HeadParts}
    (hcut : cutHead? template = some parts)
    (hlanguage : Placeholder.occursIn locale.htmlLang = false)
    (haddress : Placeholder.occursIn (registry.pageUrl page locale) = false)
    (hlinks : ∀ alternate ∈ registry.alternates page,
      Placeholder.occursIn alternate.hreflang = false ∧ Placeholder.occursIn alternate.href = false) :
    (renderPage registry page locale dictionaries template).text =
      (parts.render registry page locale dictionaries).page locale.htmlLang
        (registry.pageUrl page locale) (registry.hreflangTags page) := by
  rw [renderPage, render_filled_eq, fill_head hcut]
  exact render_head_parts dictionaries _ _ (literal_language_attribute hlanguage)
    (literal_canonical_lines haddress (literal_hreflang_tags hlinks)) (hreflang_tags_end registry page)

end LocalizedSite.Render
