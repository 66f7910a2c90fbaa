import LocalizedSite.Proofs.Extract.Run
import LocalizedSite.Proofs.Verify.LocaleTags

/-!
# The head of a page that was extracted and rendered

If the language and the canonical link of a document are read, the page rendered from its template
declares the language and the address of its locale, links to one version for each locale and to the default
one, and so passes the checks of the language and of the versions (`render_extract_head`). A canonical link
is read only if its tag ends right behind the address (`canonical_read_iff`). The links to versions are read
back as they were meant, whatever characters their languages and addresses have, since all of them are escaped
(`versions_read_back`).
-/

namespace LocalizedSite.Verify

open Html Extract Render

/-- A value without a placeholder is read exactly if the closing text stands right behind it. -/
theorem value_read_iff {content : Text} (hcontent : '"' ∉ content)
    (hliteral : Text.startsWith content openBraces = false) (opening closing rest : Text) :
    (unfilled (Slot.run opening (· != '"') closing) (opening ++ (content ++ '"' :: rest))).isSome = true ↔
      (Text.after? closing ('"' :: rest)).isSome = true := by
  have hspan : (content ++ '"' :: rest).span (· != '"') = (content, '"' :: rest) :=
    Text.span_append _ (fun character hmem ↦ bne_iff_ne.mpr fun heq ↦ hcontent (heq ▸ hmem))
      (by simp)
  simp only [unfilled, Slot.run, Text.after_append, bind, Option.bind_some, hspan]
  cases Text.after? closing ('"' :: rest) with
  | none => rfl
  | some behind => simp [hliteral]

/-- A canonical link without a placeholder is read exactly if its tag ends right behind the address. -/
theorem canonical_read_iff {address : Text} (haddress : '"' ∉ address)
    (hliteral : Text.startsWith address openBraces = false) (rest : Text) :
    (recognizeCanonical ("<link rel=\"canonical\" href=\"".toList ++ (address ++ '"' :: rest))).isSome =
      true ↔ rest.head? = some '>' := by
  refine (value_read_iff haddress hliteral _ ['"', '>'] rest).trans ?_
  cases rest with
  | nil => simp [Text.after?]
  | cons character rest =>
      by_cases hend : character = '>'
      · simp [Text.after?, hend]
      · simp [Text.after?, hend, Ne.symm hend]

section Checks

variable {file : PageDocument}

/-- The language that a document declares is that of its first `html` element, unless it is empty. -/
theorem declared_language_eq (file : PageDocument) :
    declaredLanguage file =
      (languageOf? (headingsOf file.document)).filter fun language ↦ !language.isEmpty := by
  unfold declaredLanguage languageOf? headingsOf PageDocument.elements
  rw [List.find?_map, Option.bind_map]
  rfl

/-- The languages to which a document links are those of its links to versions. -/
theorem linked_languages_eq (file : PageDocument) :
    linkedLanguages file = (versionLinks (headingsOf file.document)).map Prod.fst := by
  unfold linkedLanguages versionLinks headingsOf PageDocument.elements
  rw [List.map_filterMap, List.filterMap_map]
  refine List.filterMap_congr fun element _ ↦ ?_
  rw [Function.comp_apply, Option.map_map]
  exact Option.map_id'.symm

/-- A document that declares the language of its locale passes the check, unless the language is empty. -/
theorem language_fault_iff
    (h : languageOf? (headingsOf file.document) = some file.locale.htmlLang) :
    languageFault file = none ↔ file.locale.htmlLang ≠ [] := by
  unfold languageFault
  rw [declared_language_eq, h, Option.filter_some]
  cases file.locale.htmlLang with
  | nil => simp
  | cons character language => simp

/-- A document that links to one version for each language and to the default one passes the check, unless a
language is that of the default version. -/
theorem version_fault_iff {languages : List Text}
    (h : linkedLanguages file = languages ++ [defaultLanguage]) :
    versionFault languages file = none ↔ defaultLanguage ∉ languages := by
  have hmissing : (languages.filter fun language ↦
      !(languages ++ [defaultLanguage]).contains language) = [] :=
    List.filter_eq_nil_iff.mpr fun language hmem ↦ by simp [hmem]
  have hcount : (languages ++ [defaultLanguage]).count defaultLanguage =
      languages.count defaultLanguage + 1 := by simp
  -- No language is missing, so the default one decides: it is linked once more than there are locales
  -- with it.
  simp only [versionFault, h, hmissing, hcount]
  rw [if_neg (by decide), ← List.count_eq_zero]
  split <;> simp_all

end Checks

section Versions

/-- The links of a document to the versions of its page, in document order: the language and the address of
every link element that has a language. -/
def linkedVersions (document : List Node) : List (Text × Option Text) :=
  (elementsOf document).filterMap fun element ↦
    if element.named "link" then
      (element.attribute? "hreflang").map fun language ↦ (language, element.attribute? "href")
    else none

/-- The links to versions are told by the headings of the elements. -/
theorem linked_versions_eq (document : List Node) :
    linkedVersions document = versionLinks (headingsOf document) := by
  rw [linkedVersions, versionLinks, headingsOf, List.filterMap_map]
  refine List.filterMap_congr fun element _ ↦ ?_
  have hnamed : (element.heading.1 == "link".toList) = element.named "link" := rfl
  rw [Function.comp_apply, versionLanguage?, hnamed]
  split <;> rfl

/-- The check of the versions collects the languages of these links. -/
theorem linked_languages_eq_map (file : PageDocument) :
    linkedLanguages file = (linkedVersions file.document).map Prod.fst := by
  rw [linked_languages_eq, linked_versions_eq]

variable (registry : Registry) (page : Page)

/-- The block of links is a document of one link element for each version, and of no other element. -/
theorem document_of_versions :
    ∃ document, document? (registry.hreflangTags page) = some document ∧
      headingsOf document = (registry.alternates page).map alternateHeading := by
  obtain ⟨alternate, others, halternates⟩ : ∃ alternate others,
      registry.alternates page = alternate :: others :=
    List.exists_cons_of_ne_nil (by simp [Registry.alternates])
  obtain ⟨lexemes, hreads, hopened⟩ := reads_alternates alternate others []
  rw [← halternates, List.append_nil] at hreads
  -- Nothing is left to read behind the last link.
  have hlex : lex? .decoded (registry.hreflangTags page) = some lexemes := by
    refine hreads.lex.trans ?_
    rw [show lex? .decoded [] = some [] from rfl, Option.map_some, List.append_nil]
  obtain ⟨document, hdocument, hheadings⟩ := elements_document hlex
  exact ⟨document, hdocument, by rw [hheadings, hopened, halternates]⟩

/-- The links that are written for a page are read back as its versions: one for each locale in the order of
the registry, and behind them the default version with the address of the source locale. -/
theorem versions_read_back :
    ∃ document, document? (registry.hreflangTags page) = some document ∧
      linkedVersions document =
        (registry.alternates page).map (fun alternate ↦ (alternate.hreflang, some alternate.href)) ∧
      linkedVersions document =
        registry.locales.map (fun locale ↦ (locale.hreflang, some (registry.pageUrl page locale))) ++
          [("x-default".toList, some (registry.pageUrl page registry.source))] ∧
      ∀ file : PageFile,
        linkedLanguages ⟨file, document⟩ = registry.locales.map Locale.hreflang ++ ["x-default".toList] := by
  obtain ⟨document, hdocument, hheadings⟩ := document_of_versions registry page
  have hlinks : linkedVersions document =
      (registry.alternates page).map fun alternate ↦ (alternate.hreflang, some alternate.href) := by
    rw [linked_versions_eq, hheadings, (alternate_headings_say _).2]
  have hversions : linkedVersions document =
      registry.locales.map (fun locale ↦ (locale.hreflang, some (registry.pageUrl page locale))) ++
        [("x-default".toList, some (registry.pageUrl page registry.source))] := by
    rw [hlinks, Registry.alternates, Registry.versions, List.map_append, List.map_map]
    rfl
  refine ⟨document, hdocument, hlinks, hversions, fun file ↦ ?_⟩
  rw [linked_languages_eq_map, hversions, List.map_append, List.map_map]
  rfl

end Versions

/-- The values of a locale that stand in the head of a page can be read back: none of them holds a
placeholder, and the language and the address, which are not escaped, hold neither quotes nor references. -/
structure ShowsPlainly (registry : Registry) (page : Page) (locale : Locale) : Prop where
  language_literal : Placeholder.occursIn locale.htmlLang = false
  language_unquoted : '"' ∉ locale.htmlLang
  language_decoded : Entity.decode locale.htmlLang = locale.htmlLang
  address_literal : Placeholder.occursIn (registry.pageUrl page locale) = false
  address_unquoted : '"' ∉ registry.pageUrl page locale
  address_decoded : Entity.decode (registry.pageUrl page locale) = registry.pageUrl page locale
  versions_literal : ∀ alternate ∈ registry.alternates page,
    Placeholder.occursIn alternate.hreflang = false ∧ Placeholder.occursIn alternate.href = false

/-- What the head of a document says of its locale and its versions. -/
structure Declares (registry : Registry) (page : Page) (locale : Locale) (document : List Node) : Prop where
  language : languageOf? (headingsOf document) = some locale.htmlLang
  address : canonicalAddresses (headingsOf document) = [some (registry.pageUrl page locale)]
  versions : versionLinks (headingsOf document) =
    (registry.locales.map fun other ↦ (other.hreflang, some (registry.pageUrl page other))) ++
      [(defaultLanguage, some (registry.pageUrl page registry.source))]

variable {registry : Registry} {page : Page} {locale : Locale}

/-- The headings of a frame are plain, apart from its two tags and the links. -/
theorem HeadFrame.plain_around {parts : HeadParts} (frame : HeadFrame parts) :
    (∀ heading ∈ openedBy frame.before, IsPlain heading) ∧
      (∀ heading ∈ openedBy frame.between, IsPlain heading) ∧
      ∀ heading ∈ openedBy frame.after, IsPlain heading := by
  have hplain := frame.plain
  simp only [opened_by_append, List.forall_mem_append] at hplain
  exact hplain

/-- A framed page says what its two tags and the links say. -/
theorem HeadFrame.declares {parts : HeadParts} (frame : HeadFrame parts)
    (hshows : ShowsPlainly registry page locale) :
    ∃ document, document? (parts.page locale.htmlLang (registry.pageUrl page locale)
        (registry.hreflangTags page)) = some document ∧ Declares registry page locale document := by
  obtain ⟨alternate, others, halternates⟩ : ∃ alternate others,
      registry.alternates page = alternate :: others :=
    List.exists_cons_of_ne_nil (by simp [Registry.alternates])
  obtain ⟨document, hdocument, hheadings⟩ := frame.headings hshows.language_unquoted
    hshows.address_unquoted hshows.address_decoded alternate others
  rw [← halternates] at hdocument hheadings
  obtain ⟨hbefore, hbetween, hafter⟩ := frame.plain_around
  -- The `html` tag is no link, so the canonical link and the links to versions are the only ones that say
  -- something of the address or the versions.
  have hhtml : (frame.heading locale.htmlLang).1 = "html".toList := by
    show Text.lower "html".toList = _
    decide
  have hheading : ∀ heading ∈ [frame.heading locale.htmlLang], IsPlain heading := by
    intro heading hmem
    rw [List.mem_singleton.mp hmem]
    exact is_plain_of_ne (by rw [hhtml]; decide)
  obtain ⟨hcanonical, hnone⟩ := canonical_heading_says (registry.pageUrl page locale)
  obtain ⟨hnoAddress, hversions⟩ := alternate_headings_say (registry.alternates page)
  have hsplit : headingsOf document = openedBy frame.before ++ ([frame.heading locale.htmlLang] ++
      (openedBy frame.between ++ ([canonicalHeading (registry.pageUrl page locale)] ++
        ((registry.alternates page).map alternateHeading ++ openedBy frame.after)))) := hheadings
  refine ⟨document, hdocument, ?_, ?_, ?_⟩
  · have hfirst : (openedBy frame.before).find? (fun heading ↦ heading.1 == "html".toList) = none :=
      List.find?_eq_none.mpr fun heading hmem ↦ by simpa using frame.first_html heading hmem
    rw [languageOf?, hsplit, List.find?_append, hfirst, Option.none_or, List.singleton_append,
      List.find?_cons_of_pos (by rw [hhtml]; exact beq_self_eq_true _), Option.bind_some]
    exact frame.heading_language hshows.language_decoded
  · rw [hsplit]
    simp only [canonical_addresses_append, canonical_addresses_plain hbefore,
      canonical_addresses_plain hheading, canonical_addresses_plain hbetween,
      canonical_addresses_plain hafter, hcanonical, hnoAddress, List.nil_append, List.append_nil]
  · rw [hsplit]
    simp only [version_links_append, version_links_plain hbefore, version_links_plain hheading,
      version_links_plain hbetween, version_links_plain hafter, hnone, hversions, List.nil_append,
      List.append_nil]
    simp [Registry.alternates, Registry.versions, Registry.defaultUrl]

/-- A document that says this passes the checks, if the language is not empty and no locale has the
language of the default version. -/
theorem Declares.passes {document : List Node} (h : Declares registry page locale document)
    (place text : Text) :
    let file : PageDocument := ⟨⟨page, locale, place, text⟩, document⟩
    (languageFault file = none ↔ locale.htmlLang ≠ []) ∧
      (versionFault (registry.locales.map Locale.hreflang) file = none ↔
        defaultLanguage ∉ registry.locales.map Locale.hreflang) := by
  intro file
  refine ⟨language_fault_iff h.language, version_fault_iff ?_⟩
  rw [linked_languages_eq, h.versions]
  simp [Function.comp_def]

/-- If language and canonical link of a document are read and no text that is taken from it holds a piece of
them, the template can be cut at both; and if what is rendered around them frames a head, the page
declares its language, its address and its versions, and passes the checks. -/
theorem render_extract_head {vocabulary : Vocabulary} {brand html template : Text} {harvest : Harvest}
    (hcontent : extractContent? page.key vocabulary brand html = some (template, harvest))
    (hredirect : page.redirectTo = none)
    (hread : readsHead (headTexts (.empty page.key) html).1 = true) (hkeeps : harvest.KeepsMarks)
    (hshows : ShowsPlainly registry page locale) (dictionaries : Dictionaries) :
    ∃ extraction parts, extractPage? page vocabulary brand html = some extraction ∧
      cutHead? extraction.template = some parts ∧
      ∀ _ : HeadFrame (parts.render registry page locale dictionaries), ∃ document,
        document? (renderPage registry page locale dictionaries extraction.template).text =
          some document ∧
        Declares registry page locale document ∧
        ∀ place text, let file : PageDocument := ⟨⟨page, locale, place, text⟩, document⟩
          (languageFault file = none ↔ locale.htmlLang ≠ []) ∧
            (versionFault (registry.locales.map Locale.hreflang) file = none ↔
              defaultLanguage ∉ registry.locales.map Locale.hreflang) := by
  obtain ⟨run, rfl, rfl⟩ := exists_run hcontent
  rw [run.headed_eq] at hread
  obtain ⟨parts, hcut⟩ := exists_cut_head (run.has_marks hread hkeeps)
  have hextract : extractPage? page vocabulary brand html =
      some ⟨localizeLinks run.popped.1, run.popped.2.page, run.popped.2.shared⟩ := by
    unfold extractPage?
    simp only [hredirect, hcontent, Option.map_some]
  refine ⟨_, parts, hextract, hcut, fun frame ↦ ?_⟩
  obtain ⟨document, hdocument, hdeclares⟩ := frame.declares hshows
  refine ⟨document, ?_, hdeclares, hdeclares.passes⟩
  -- The values of the locale fill the places at which the template was cut.
  rw [render_page_head dictionaries hcut hshows.language_literal hshows.address_literal
    hshows.versions_literal, hdocument]

/-- A head with each of the two tags on a line of its own. -/
def linedFrame : HeadFrame ⟨"<html ".toList, ">\n".toList, "\n</html>".toList⟩ where
  outer := []
  before := []
  opening := []
  gap := [' ']
  closing := []
  ending := []
  inner := ['\n']
  between := [.ofText ['\n']]
  after := [.ofText ['\n'], ⟨"</html>".toList, some (.finish "html".toList)⟩]
  front_eq := rfl
  middle_eq := rfl
  outer_read := reads_before_tag_nil
  inner_read := reads_before_tag_text (by decide) (fails_of_any (by decide))
  back_read := by decide +kernel
  opening_well_formed := by simp
  gap_ne_nil := by simp
  gap_blank := List.all_eq_true.mp (by decide)
  closing_well_formed := by simp
  ending_blank := by simp
  first_html := by simp [openedBy]
  last_language := by simp
  plain := by
    rw [show openedBy _ = [] from rfl]
    simp

/-- An English page with a canonical link is rendered in German. -/
theorem render_extract_head_german :
    let english : Locale := ⟨"en".toList, [], "en_GB".toList, "en".toList, "en".toList,
      "English".toList, [], none, []⟩
    let german : Locale := ⟨"de".toList, "de/".toList, "de_DE".toList, "de".toList, "de".toList,
      "Deutsch".toList, [], none, []⟩
    let page : Page := ⟨"home".toList, "index.html".toList, "index.html".toList, none⟩
    let registry : Registry := .ofAddress "https://tea".toList [english, german] english
    let html := "<html lang=\"en\">\n<link rel=\"canonical\" href=\"x\">\n</html>".toList
    ∃ extraction document, extractPage? page .standard [] html = some extraction ∧
      document? (renderPage registry page german ⟨[], []⟩ extraction.template).text = some document ∧
      Declares registry page german document ∧
      languageFault ⟨⟨page, german, [], []⟩, document⟩ = none ∧
      versionFault ["en".toList, "de".toList] ⟨⟨page, german, [], []⟩, document⟩ = none := by
  intro english german page registry html
  have hmarked : (extractContent? page.key .standard [] html).map
      (fun result ↦ (cutHead? result.1, result.2.taken.length)) =
      some (some ⟨"<html ".toList, ">\n".toList, "\n</html>".toList⟩, 0) := by decide +kernel
  obtain ⟨⟨template, harvest⟩, hcontent, hresult⟩ := Option.map_eq_some_iff.mp hmarked
  rw [Prod.mk.injEq, List.length_eq_zero_iff] at hresult
  have hkeeps : harvest.KeepsMarks := by
    intro taking hmem
    rw [hresult.2] at hmem
    exact absurd hmem List.not_mem_nil
  have hshows : ShowsPlainly registry page german :=
    ⟨by decide, by decide, Entity.decode_of_not_mem (by decide), by decide, by decide,
      Entity.decode_of_not_mem (by decide), by decide +kernel⟩
  obtain ⟨extraction, parts, hextract, hcut, hframe⟩ := render_extract_head hcontent rfl
    (by decide +kernel) hkeeps hshows ⟨[], []⟩
  have htemplate : extraction.template = template := by
    have hsame : extractPage? page .standard [] html = some ⟨template, harvest.page, harvest.shared⟩ := by
      rw [extractPage?, hcontent]
      rfl
    exact congrArg Extraction.template (Option.some.inj (hextract.symm.trans hsame))
  obtain rfl := Option.some.inj ((htemplate ▸ hcut).symm.trans hresult.1)
  have hparts : HeadParts.render ⟨"<html ".toList, ">\n".toList, "\n</html>".toList⟩ registry page german
      ⟨[], []⟩ = ⟨"<html ".toList, ">\n".toList, "\n</html>".toList⟩ := by decide +kernel
  rw [hparts] at hframe
  obtain ⟨document, hdocument, hdeclares, hchecks⟩ := hframe linedFrame
  obtain ⟨hlanguage, hversions⟩ := hchecks [] []
  exact ⟨extraction, document, hextract, hdocument, hdeclares, hlanguage.mpr (by decide),
    hversions.mpr (by decide)⟩

end LocalizedSite.Verify
