import LocalizedSite.Proofs.Html.Elements
import LocalizedSite.Proofs.Html.Reading
import LocalizedSite.Proofs.Render.HeadTags
import LocalizedSite.Verify.Page

/-!
# The tags of the locale in a rendered page

How the canonical link and the links to versions are read that the renderer writes (`reads_canonical`,
`reads_alternates`), and what they say among the elements of a document. `HeadFrame` is what may stand
around the two tags of a head so that the whole page is read with them in their places
(`HeadFrame.headings`).
-/

namespace LocalizedSite.Verify

open Html Extract Render

section Tags

/-- A test that no character of a text passes fails for each of them. -/
theorem fails_of_any {test : Char → Bool} {text : Text} (h : text.any test = false) :
    ∀ character ∈ text, test character = false :=
  fun character hmem ↦ Bool.eq_false_iff.mpr (List.any_eq_false.mp h character hmem)

/-- An attribute as the renderer writes it. -/
def quotedAttribute (name content : Text) : WrittenAttribute :=
  ⟨[' '], name, .quoted '"' content⟩

/-- The attributes of a canonical link. -/
def canonicalAttributes (address : Text) : List WrittenAttribute :=
  [quotedAttribute "rel".toList "canonical".toList, quotedAttribute "href".toList address]

/-- The attributes of a link to a version of a page. -/
def alternateAttributes (alternate : Alternate) : List WrittenAttribute :=
  [quotedAttribute "rel".toList "alternate".toList,
    quotedAttribute "hreflang".toList (escapeMarkup alternate.hreflang),
    quotedAttribute "href".toList (escapeMarkup alternate.href)]

/-- The canonical link is written as a tag. -/
theorem canonical_lines_eq (address links : Text) :
    canonicalLines address links =
      startTagText "link".toList (canonicalAttributes address) [] ++ (headBreak ++ links) := by
  unfold canonicalLines
  simp [startTagText, attributesText, WrittenAttribute.text, WrittenAttribute.body, WrittenValue.text,
    canonicalAttributes, quotedAttribute]

/-- A link to a version of a page is written as a tag. -/
theorem alternate_tag_eq (alternate : Alternate) :
    Registry.alternateTag alternate =
      startTagText "link".toList (alternateAttributes alternate) [] := by
  unfold Registry.alternateTag
  simp [startTagText, attributesText, WrittenAttribute.text, WrittenAttribute.body, WrittenValue.text,
    alternateAttributes, quotedAttribute]

/-- A written attribute can be read if its content has no quote. -/
theorem quoted_attribute_well_formed {name content : Text} (hne : name ≠ [])
    (hname : name.all isAttributeCharacter = true) (hcontent : '"' ∉ content) :
    (quotedAttribute name content).IsWellFormed where
  blanks_ne_nil := by simp [quotedAttribute]
  blanks_blank := by
    intro character hmem
    obtain rfl : character = ' ' := by simpa [quotedAttribute] using hmem
    decide
  name_ne_nil := hne
  name_allowed := List.all_eq_true.mp hname
  value_well_formed := ⟨.inr rfl, hcontent⟩

/-- The heading of an element with written attributes. -/
def writtenHeading (name : Text) (attributes : List WrittenAttribute) : Heading :=
  (name, elementAttributes (attributes.map WrittenAttribute.meant))

/-- The tag of a link is read. -/
theorem reads_link {attributes : List WrittenAttribute}
    (hattributes : ∀ written ∈ attributes, written.IsWellFormed) (rest : Text) :
    ∃ lexemes, Reads .decoded none (startTagText "link".toList attributes [] ++ rest) lexemes none rest ∧
      openedBy lexemes = [writtenHeading "link".toList attributes] := by
  have hname : IsTagName "link".toList :=
    ⟨⟨'l', "ink".toList, rfl, by decide⟩, fails_of_any (by decide)⟩
  have hblanks : ∀ character ∈ ([] : Text), isTagBlank character = true := by simp
  obtain ⟨source, hreads⟩ : ∃ source, Reads .decoded none
      (startTagText "link".toList attributes [] ++ rest) [⟨source, _⟩] none rest :=
    reads_start_tag hname (by decide) hattributes hblanks rest
  exact ⟨_, hreads, rfl⟩

/-- The line break and indentation between two tags is read as text. -/
theorem reads_break (rest : Text) :
    ∃ lexemes, Reads .decoded none (headBreak ++ '<' :: rest) lexemes none ('<' :: rest) ∧
      openedBy lexemes = [] :=
  ⟨_, reads_text (by decide) (fails_of_any (by decide)) rest, rfl⟩

/-- The attributes of a canonical link can be read. -/
theorem canonical_attributes_well_formed {address : Text} (h : '"' ∉ address) :
    ∀ written ∈ canonicalAttributes address, written.IsWellFormed := by
  simp only [canonicalAttributes, List.forall_mem_cons]
  exact ⟨quoted_attribute_well_formed (by decide) (by decide) (by decide),
    quoted_attribute_well_formed (by decide) (by decide) h, by simp⟩

/-- The attributes of a link to a version can be read, whatever its values are. -/
theorem alternate_attributes_well_formed (alternate : Alternate) :
    ∀ written ∈ alternateAttributes alternate, written.IsWellFormed := by
  have hquote (text : Text) : '"' ∉ escapeMarkup text :=
    Entity.not_mem_escape_markup (by decide) text
  simp only [alternateAttributes, List.forall_mem_cons]
  exact ⟨quoted_attribute_well_formed (by decide) (by decide) (by decide),
    quoted_attribute_well_formed (by decide) (by decide) (hquote _),
    quoted_attribute_well_formed (by decide) (by decide) (hquote _), by simp⟩

/-- The heading of a canonical link. -/
def canonicalHeading (address : Text) : Heading :=
  ("link".toList, [("rel".toList, "canonical".toList), ("href".toList, address)])

/-- The heading of a link to a version of a page. -/
def alternateHeading (alternate : Alternate) : Heading :=
  ("link".toList, [("rel".toList, "alternate".toList), ("hreflang".toList, alternate.hreflang),
    ("href".toList, alternate.href)])

/-- A canonical link says its address. -/
theorem canonical_heading_eq {address : Text} (h : Entity.decode address = address) :
    writtenHeading "link".toList (canonicalAttributes address) = canonicalHeading address := by
  have hmeant : (canonicalAttributes address).map WrittenAttribute.meant =
      [("rel".toList, some "canonical".toList), ("href".toList, some address)] := by
    simp only [canonicalAttributes, List.map_cons, List.map_nil, WrittenAttribute.meant, quotedAttribute,
      WrittenValue.value, h]
    rw [Entity.decode_of_not_mem (by decide)]
    rfl
  have hnames : ["rel".toList, "href".toList].Nodup := by decide
  rw [writtenHeading, hmeant, canonicalHeading, elementAttributes]
  exact congrArg _ (Entries.of_list_eq hnames)

/-- A link to a version says its language and its address, since they are escaped. -/
theorem alternate_heading_eq (alternate : Alternate) :
    writtenHeading "link".toList (alternateAttributes alternate) = alternateHeading alternate := by
  have hmeant : (alternateAttributes alternate).map WrittenAttribute.meant =
      [("rel".toList, some "alternate".toList), ("hreflang".toList, some alternate.hreflang),
        ("href".toList, some alternate.href)] := by
    simp only [alternateAttributes, List.map_cons, List.map_nil, WrittenAttribute.meant, quotedAttribute,
      WrittenValue.value, Entity.decode_escape_markup]
    rw [Entity.decode_of_not_mem (by decide)]
    rfl
  have hnames : ["rel".toList, "hreflang".toList, "href".toList].Nodup := by decide
  rw [writtenHeading, hmeant, alternateHeading, elementAttributes]
  exact congrArg _ (Entries.of_list_eq hnames)

/-- The tag of a canonical link is read as the link to its address. -/
theorem reads_canonical {address : Text} (hquote : '"' ∉ address)
    (hdecode : Entity.decode address = address) (rest : Text) :
    ∃ lexemes, Reads .decoded none
        (startTagText "link".toList (canonicalAttributes address) [] ++ rest) lexemes none rest ∧
      openedBy lexemes = [canonicalHeading address] := by
  rw [← canonical_heading_eq hdecode]
  exact reads_link (canonical_attributes_well_formed hquote) rest

/-- The tag of a link to a version is read as that link. -/
theorem reads_alternate (alternate : Alternate) (rest : Text) :
    ∃ lexemes, Reads .decoded none (Registry.alternateTag alternate ++ rest) lexemes none rest ∧
      openedBy lexemes = [alternateHeading alternate] := by
  rw [← alternate_heading_eq, alternate_tag_eq]
  exact reads_link (alternate_attributes_well_formed alternate) rest

theorem opened_by_append (first second : List Lexeme) :
    openedBy (first ++ second) = openedBy first ++ openedBy second := by
  simp [openedBy]

/-- The links to versions begin with a tag. -/
theorem alternates_begin (alternate : Alternate) (others : List Alternate) (rest : Text) :
    ∃ tail, Text.joinWith Registry.headSeparator
      ((alternate :: others).map Registry.alternateTag) ++ rest = '<' :: tail := by
  obtain ⟨more, hmore⟩ := Text.prefix_join_with Registry.headSeparator
    (Registry.alternateTag alternate) (others.map Registry.alternateTag)
  rw [List.map_cons, ← hmore, alternate_tag_eq]
  exact ⟨_, rfl⟩

/-- The links to versions are read one by one. -/
theorem reads_alternates (alternate : Alternate) (others : List Alternate) (rest : Text) :
    ∃ lexemes, Reads .decoded none (Text.joinWith Registry.headSeparator
        ((alternate :: others).map Registry.alternateTag) ++ rest) lexemes none rest ∧
      openedBy lexemes = (alternate :: others).map alternateHeading := by
  induction others generalizing alternate with
  | nil =>
      simp only [List.map_cons, List.map_nil, Text.join_with_singleton]
      exact reads_alternate alternate rest
  | cons second others ih =>
      obtain ⟨later, hlater, hheadings⟩ := ih second
      obtain ⟨tail, htail⟩ := alternates_begin second others rest
      rw [List.map_cons, Text.join_with_cons_of_ne_nil (by simp), List.append_assoc, List.append_assoc,
        htail]
      rw [htail] at hlater
      -- Reading the line break stops at the next tag.
      obtain ⟨between, hbetween, hnone⟩ := reads_break tail
      obtain ⟨first, hfirst, hheading⟩ := reads_alternate alternate (headBreak ++ '<' :: tail)
      refine ⟨first ++ (between ++ later), hfirst.trans (hbetween.trans hlater), ?_⟩
      rw [opened_by_append, opened_by_append, hheading, hnone, hheadings]
      rfl

end Tags

section Declared

/-- The language that the first `html` element among some headings declares. -/
def languageOf? (headings : List Heading) : Option Text :=
  (headings.find? fun heading ↦ heading.1 == "html".toList).bind fun heading ↦
    Entries.get? heading.2 "lang".toList

/-- Whether a heading is that of a canonical link. -/
def isCanonical (heading : Heading) : Bool :=
  heading.1 == "link".toList && (Entries.get? heading.2 "rel".toList).any fun relation ↦
    (Text.words relation).contains "canonical".toList

/-- The addresses of the canonical links among some headings. -/
def canonicalAddresses (headings : List Heading) : List (Option Text) :=
  (headings.filter isCanonical).map fun heading ↦ Entries.get? heading.2 "href".toList

/-- The language of the version that a link leads to. -/
def versionLanguage? (heading : Heading) : Option Text :=
  if heading.1 == "link".toList then Entries.get? heading.2 "hreflang".toList else none

/-- The links to versions of a page among some headings: their languages and addresses. -/
def versionLinks (headings : List Heading) : List (Text × Option Text) :=
  headings.filterMap fun heading ↦ (versionLanguage? heading).map fun language ↦
    (language, Entries.get? heading.2 "href".toList)

/-- A heading that is neither that of a canonical link nor that of a link to a version. -/
def IsPlain (heading : Heading) : Prop :=
  isCanonical heading = false ∧ versionLanguage? heading = none

theorem canonical_addresses_append (first second : List Heading) :
    canonicalAddresses (first ++ second) = canonicalAddresses first ++ canonicalAddresses second := by
  simp [canonicalAddresses]

theorem version_links_append (first second : List Heading) :
    versionLinks (first ++ second) = versionLinks first ++ versionLinks second := by
  simp [versionLinks]

/-- Plain headings have no canonical link. -/
theorem canonical_addresses_plain {headings : List Heading} (h : ∀ heading ∈ headings, IsPlain heading) :
    canonicalAddresses headings = [] := by
  have hnone : headings.filter isCanonical = [] :=
    List.filter_eq_nil_iff.mpr fun heading hmem ↦ by simp [(h heading hmem).1]
  rw [canonicalAddresses, hnone, List.map_nil]

/-- Plain headings have no link to a version. -/
theorem version_links_plain {headings : List Heading} (h : ∀ heading ∈ headings, IsPlain heading) :
    versionLinks headings = [] :=
  List.filterMap_eq_nil_iff.mpr fun heading hmem ↦ by simp [(h heading hmem).2]

/-- A heading of another element than a link is plain. -/
theorem is_plain_of_ne {heading : Heading} (h : heading.1 ≠ "link".toList) : IsPlain heading := by
  have hname : (heading.1 == "link".toList) = false := beq_eq_false_iff_ne.mpr h
  constructor
  · rw [isCanonical, hname, Bool.false_and]
  · rw [versionLanguage?, hname]
    rfl

/-- A link is canonical by the words of its relation. -/
theorem is_canonical_link {attributes : Entries Text} {relation : Text}
    (h : Entries.get? attributes "rel".toList = some relation) :
    isCanonical ("link".toList, attributes) =
      (Text.words relation).contains "canonical".toList := by
  rw [isCanonical, h, beq_self_eq_true, Bool.true_and, Option.any_some]

/-- A link leads to a version by its language. -/
theorem version_language_link (attributes : Entries Text) :
    versionLanguage? ("link".toList, attributes) = Entries.get? attributes "hreflang".toList := by
  rw [versionLanguage?, if_pos (beq_self_eq_true _)]

/-- What a canonical link says. -/
theorem canonical_heading_says (address : Text) :
    canonicalAddresses [canonicalHeading address] = [some address] ∧
      versionLinks [canonicalHeading address] = [] := by
  have hcanonical : isCanonical (canonicalHeading address) = true := by
    rw [canonicalHeading, is_canonical_link rfl]
    decide
  have hversion : versionLanguage? (canonicalHeading address) = none := by
    rw [canonicalHeading, version_language_link]
    rfl
  constructor
  · rw [canonicalAddresses, List.filter_cons_of_pos hcanonical]
    rfl
  · rw [versionLinks, List.filterMap_cons, hversion]
    rfl

/-- What the links to versions say. -/
theorem alternate_headings_say (alternates : List Alternate) :
    canonicalAddresses (alternates.map alternateHeading) = [] ∧
      versionLinks (alternates.map alternateHeading) =
        alternates.map fun alternate ↦ (alternate.hreflang, some alternate.href) := by
  have hcanonical (alternate : Alternate) : isCanonical (alternateHeading alternate) = false := by
    rw [alternateHeading, is_canonical_link rfl]
    decide
  have hversion (alternate : Alternate) :
      versionLanguage? (alternateHeading alternate) = some alternate.hreflang := by
    rw [alternateHeading, version_language_link]
    rfl
  constructor
  · rw [canonicalAddresses, List.filter_eq_nil_iff.mpr, List.map_nil]
    simp [hcanonical]
  · have hlink (alternate : Alternate) : (versionLanguage? (alternateHeading alternate)).map (fun language ↦
        (language, Entries.get? (alternateHeading alternate).2 "href".toList)) =
        some (alternate.hreflang, some alternate.href) := by
      rw [hversion]
      rfl
    rw [versionLinks, List.filterMap_map, ← List.filterMap_eq_map]
    exact List.filterMap_congr fun alternate _ ↦ hlink alternate

/-- The last value of a name among attributes is the one that its element has. -/
theorem get_element_attributes {front back : List Attribute} {name value : Text}
    (h : ∀ other ∈ back, other.1 ≠ name) :
    Entries.get? (elementAttributes (front ++ (name, some value) :: back)) name = some value := by
  have hback {say : Attribute → Text × Text} (hsay : ∀ found, (say found).1 = found.1) :
      Entries.get? (back.map say).reverse name = none := by
    rw [Entries.get_eq_none_iff, Entries.names, List.map_reverse, List.map_map, List.mem_reverse]
    intro hmem
    obtain ⟨other, hother, heq⟩ := List.mem_map.mp hmem
    exact h other hother ((hsay other).symm.trans heq)
  -- Attributes are put one after another, so the value that is found is the last one in the tag.
  rw [elementAttributes, Entries.ofList, Entries.get_put_all, List.map_append, List.map_cons,
    List.reverse_append, List.reverse_cons, Entries.get_append, Entries.get_append,
    hback fun _ ↦ rfl, Entries.get_cons, if_pos rfl]
  rfl

end Declared

section Frame

/-- The `lang` attribute behind a gap. -/
def languageWritten (gap language : Text) : WrittenAttribute :=
  ⟨gap, "lang".toList, .quoted '"' language⟩

/-- What stands around the two tags of a head, where one is in the first `html` tag, the other is a tag of
its own, and no further link speaks of the page's address or its versions. -/
structure HeadFrame (parts : HeadParts) where
  /-- The text before the `html` tag, and its lexemes. -/
  outer : Text
  before : List Lexeme
  /-- The attributes of the tag before the `lang` attribute, and the gap behind them. -/
  opening : List WrittenAttribute
  gap : Text
  /-- The attributes behind it, and the blanks at the end of the tag. -/
  closing : List WrittenAttribute
  ending : Text
  /-- The text between the tag and the canonical link, and its lexemes. -/
  inner : Text
  between : List Lexeme
  /-- The lexemes behind the links. -/
  after : List Lexeme
  front_eq : parts.front = outer ++ '<' :: ("html".toList ++ (attributesText opening ++ gap))
  middle_eq : parts.middle = attributesText closing ++ (ending ++ '>' :: inner)
  outer_read : ReadsBeforeTag .decoded outer before
  inner_read : ReadsBeforeTag .decoded inner between
  back_read : lex? .decoded parts.back = some after
  opening_well_formed : ∀ written ∈ opening, written.IsWellFormed
  gap_ne_nil : gap ≠ []
  gap_blank : ∀ character ∈ gap, isTagBlank character = true
  closing_well_formed : ∀ written ∈ closing, written.IsWellFormed
  ending_blank : ∀ character ∈ ending, isTagBlank character = true
  first_html : ∀ heading ∈ openedBy before, heading.1 ≠ "html".toList
  last_language : ∀ written ∈ closing, Text.lower written.name ≠ "lang".toList
  plain : ∀ heading ∈ openedBy (before ++ (between ++ after)), IsPlain heading

namespace HeadFrame

variable {parts : HeadParts} {language address : Text}

/-- The attributes of the `html` tag with a language. -/
def attributes (frame : HeadFrame parts) (language : Text) : List WrittenAttribute :=
  frame.opening ++ languageWritten frame.gap language :: frame.closing

/-- The attributes of the `html` tag can be read. -/
theorem attributes_well_formed (frame : HeadFrame parts) (h : '"' ∉ language) :
    ∀ written ∈ frame.attributes language, written.IsWellFormed := by
  have hname : ∀ character ∈ "lang".toList, isAttributeCharacter character = true :=
    List.all_eq_true.mp (by decide)
  have hlanguage : (languageWritten frame.gap language).IsWellFormed :=
    ⟨frame.gap_ne_nil, frame.gap_blank, by simp [languageWritten], hname, .inr rfl, h⟩
  simp only [attributes, List.forall_mem_append, List.forall_mem_cons]
  exact ⟨frame.opening_well_formed, hlanguage, frame.closing_well_formed⟩

/-- The page is the text before the tag, the tag, the text up to the canonical link, and the rest. -/
theorem page_eq (frame : HeadFrame parts) (language address links : Text) :
    parts.page language address links = frame.outer ++
      (startTagText "html".toList (frame.attributes language) frame.ending ++ (frame.inner ++
        (startTagText "link".toList (canonicalAttributes address) [] ++
          (headBreak ++ links ++ parts.back)))) := by
  rw [HeadParts.page, frame.front_eq, frame.middle_eq, canonical_lines_eq]
  unfold languageAttribute
  simp [startTagText, attributes, attributesText, WrittenAttribute.text, WrittenAttribute.body,
    WrittenValue.text, languageWritten]

/-- The heading of the `html` element. -/
def heading (frame : HeadFrame parts) (language : Text) : Heading :=
  writtenHeading "html".toList (frame.attributes language)

/-- The `html` element has the language. -/
theorem heading_language (frame : HeadFrame parts) (h : Entity.decode language = language) :
    Entries.get? (frame.heading language).2 "lang".toList = some language := by
  have hmeant : (languageWritten frame.gap language).meant = ("lang".toList, some language) := by
    rw [WrittenAttribute.meant, languageWritten, WrittenValue.value, h]
    rfl
  rw [heading, writtenHeading, attributes, List.map_append, List.map_cons, hmeant]
  refine get_element_attributes fun other hother ↦ ?_
  obtain ⟨written, hmem, rfl⟩ := List.mem_map.mp hother
  exact frame.last_language written hmem

/-- The `html` tag is read. -/
theorem reads_tag (frame : HeadFrame parts) (h : '"' ∉ language) (rest : Text) :
    ∃ lexemes, Reads .decoded none
        (startTagText "html".toList (frame.attributes language) frame.ending ++ rest) lexemes none rest ∧
      openedBy lexemes = [frame.heading language] := by
  have hname : IsTagName "html".toList := ⟨⟨'h', "tml".toList, rfl, by decide⟩, fails_of_any (by decide)⟩
  obtain ⟨source, hreads⟩ : ∃ source, Reads .decoded none
      (startTagText "html".toList (frame.attributes language) frame.ending ++ rest) [⟨source, _⟩]
      none rest :=
    reads_start_tag hname (by decide) (frame.attributes_well_formed h) frame.ending_blank rest
  exact ⟨_, hreads, rfl⟩

/-- The elements of a framed page: those of the frame with the two tags and the links in their places. -/
theorem headings (frame : HeadFrame parts) (hlanguage : '"' ∉ language) (haddress : '"' ∉ address)
    (hdecode : Entity.decode address = address) (alternate : Alternate) (others : List Alternate) :
    ∃ document, document? (parts.page language address (Text.joinWith Registry.headSeparator
        ((alternate :: others).map Registry.alternateTag))) = some document ∧
      headingsOf document = openedBy frame.before ++ frame.heading language ::
        (openedBy frame.between ++ canonicalHeading address ::
          ((alternate :: others).map alternateHeading ++ openedBy frame.after)) := by
  -- The page is read piece by piece; each piece ends where the next tag begins.
  let links := Text.joinWith Registry.headSeparator ((alternate :: others).map Registry.alternateTag)
  obtain ⟨tail, htail⟩ := alternates_begin alternate others parts.back
  obtain ⟨tag, htag, htagHeading⟩ := frame.reads_tag hlanguage
    (frame.inner ++ (startTagText "link".toList (canonicalAttributes address) [] ++
      (headBreak ++ (links ++ parts.back))))
  obtain ⟨link, hlink, hlinkHeading⟩ := reads_canonical haddress hdecode (headBreak ++ (links ++ parts.back))
  obtain ⟨gap, hgap, hnone⟩ := reads_break tail
  obtain ⟨versions, hversions, hversionHeadings⟩ := reads_alternates alternate others parts.back
  rw [← htail] at hgap
  have hreads := (frame.outer_read _).trans (htag.trans ((frame.inner_read _).trans
    (hlink.trans (hgap.trans hversions))))
  obtain ⟨document, hdocument, hheadings⟩ := elements_document
    (hreads.lex.trans (by rw [frame.back_read, Option.map_some]))
  refine ⟨document, ?_, ?_⟩
  · rw [frame.page_eq, List.append_assoc]
    exact hdocument
  rw [hheadings]
  simp only [opened_by_append, htagHeading, hlinkHeading, hnone, hversionHeadings]
  simp

end HeadFrame

end Frame

end LocalizedSite.Verify
