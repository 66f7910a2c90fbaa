import LocalizedSite.Proofs.Html.Building
import LocalizedSite.Proofs.Verify.LocaleTags
import LocalizedSite.Render.Sitemap

/-!
# The sitemap as a document

The text of a sitemap is a declaration and one element, whose lines are the elements of the entries
(`sitemap_text_eq`). It is read as a document in which these elements say what the entries say, whatever the
texts of the entries are (`sitemap_reads_back`).
-/

namespace LocalizedSite.Render

open Html

section Lines

/-- The line breaks behind some lines, with one in front, are line breaks in front of each of them and one
at the end. -/
theorem line_breaks_shift {α : Type} (indentation : Text) (written : α → Text) (values : List α)
    (rest : Text) :
    '\n' :: (values.flatMap (fun value ↦ indentation ++ written value ++ ['\n']) ++ rest) =
      values.flatMap (fun value ↦ '\n' :: indentation ++ written value) ++ '\n' :: rest := by
  induction values with
  | nil => rfl
  | cons value values ih =>
      simp only [List.flatMap_cons, List.append_assoc, List.cons_append, List.nil_append] at ih ⊢
      rw [ih]

/-- The element of one value of an entry. -/
def valueText (value : Text × Text) : Text :=
  startTagText value.1 [] [] ++ ([] ++ (escapeMarkup value.2 ++ endTagText value.1))

/-- The element of a link of an entry. -/
def versionText (alternate : Alternate) : Text :=
  emptyTagText "xhtml:link".toList (Verify.alternateAttributes alternate)

/-- The values of an entry by name. -/
def SitemapEntry.values (entry : SitemapEntry) : List (Text × Text) :=
  [("loc".toList, entry.location), ("lastmod".toList, entry.lastChange),
    ("changefreq".toList, entry.frequency), ("priority".toList, entry.priority)]

/-- The lines inside an entry. -/
def SitemapEntry.linesText (entry : SitemapEntry) : Text :=
  entry.values.flatMap (fun value ↦ escapeMarkup "\n    ".toList ++ valueText value) ++
    entry.alternates.flatMap fun alternate ↦
      escapeMarkup "\n      ".toList ++ versionText alternate

/-- The element of an entry. -/
def SitemapEntry.elementText (entry : SitemapEntry) : Text :=
  startTagText "url".toList [] [] ++
    (entry.linesText ++ (escapeMarkup "\n  ".toList ++ endTagText "url".toList))

theorem sitemap_value_eq (name value : Text) :
    sitemapValue name value = "    ".toList ++ valueText (name, value) ++ ['\n'] := by
  unfold sitemapValue valueText startTagText endTagText attributesText
  rw [show "    <".toList = "    ".toList ++ ['<'] from rfl,
    show ">\n".toList = ['>'] ++ ['\n'] from rfl]
  simp only [List.flatMap_nil, List.append_assoc, List.cons_append, List.nil_append]

theorem sitemap_link_eq (alternate : Alternate) :
    sitemapLink alternate = "      ".toList ++ versionText alternate ++ ['\n'] := by
  unfold sitemapLink versionText emptyTagText attributesText
  simp only [Verify.alternateAttributes, Verify.quotedAttribute, List.flatMap_cons, List.flatMap_nil,
    WrittenAttribute.text, WrittenAttribute.body, WrittenValue.text]
  rw [show "      <xhtml:link rel=\"alternate\" hreflang=\"".toList = "      ".toList ++ '<' ::
      ("xhtml:link".toList ++ ' ' :: ("rel".toList ++ '=' :: '"' :: ("alternate".toList ++ '"' :: ' ' ::
        ("hreflang".toList ++ ['=', '"'])))) from rfl,
    show "\" href=\"".toList = '"' :: ' ' :: ("href".toList ++ ['=', '"']) from rfl,
    show "\"/>\n".toList = '"' :: ("/>".toList ++ ['\n']) from rfl]
  simp only [List.append_assoc, List.cons_append, List.nil_append]

/-- An entry is a line with its element. -/
theorem sitemap_entry_text_eq (entry : SitemapEntry) :
    sitemapEntryText entry = "  ".toList ++ entry.elementText ++ ['\n'] := by
  have hvalues : sitemapValue "loc".toList entry.location ++
      sitemapValue "lastmod".toList entry.lastChange ++
      sitemapValue "changefreq".toList entry.frequency ++
      sitemapValue "priority".toList entry.priority =
        entry.values.flatMap fun value ↦ "    ".toList ++ valueText value ++ ['\n'] := by
    simp only [sitemap_value_eq, SitemapEntry.values, List.flatMap_cons, List.flatMap_nil,
      List.append_nil, List.append_assoc]
  have hlinks : entry.alternates.flatMap sitemapLink =
      entry.alternates.flatMap fun alternate ↦ "      ".toList ++ versionText alternate ++ ['\n'] := by
    simp only [← sitemap_link_eq]
  have hopen : "  <url>\n".toList = "  ".toList ++ startTagText "url".toList [] [] ++ ['\n'] := rfl
  have hclose : "  </url>\n".toList = "  ".toList ++ endTagText "url".toList ++ ['\n'] := rfl
  have hvalueLines := line_breaks_shift "    ".toList valueText entry.values
    (entry.alternates.flatMap (fun alternate ↦ "      ".toList ++ versionText alternate ++ ['\n']) ++
      ("  ".toList ++ endTagText "url".toList ++ ['\n']))
  have hlinkLines := line_breaks_shift "      ".toList versionText entry.alternates
    ("  ".toList ++ endTagText "url".toList ++ ['\n'])
  calc sitemapEntryText entry
      = "  ".toList ++ (startTagText "url".toList [] [] ++ '\n' ::
          (entry.values.flatMap (fun value ↦ "    ".toList ++ valueText value ++ ['\n']) ++
            (entry.alternates.flatMap (fun alternate ↦
              "      ".toList ++ versionText alternate ++ ['\n']) ++
              ("  ".toList ++ endTagText "url".toList ++ ['\n'])))) := by
        unfold sitemapEntryText
        rw [← hvalues, hlinks, hopen, hclose]
        simp only [List.append_assoc, List.cons_append, List.nil_append]
    _ = "  ".toList ++ entry.elementText ++ ['\n'] := by
        rw [hvalueLines, hlinkLines]
        unfold SitemapEntry.elementText SitemapEntry.linesText
        rw [show escapeMarkup "\n    ".toList = '\n' :: "    ".toList from rfl,
          show escapeMarkup "\n      ".toList = '\n' :: "      ".toList from rfl,
          show escapeMarkup "\n  ".toList = '\n' :: "  ".toList from rfl]
        simp only [List.append_assoc, List.cons_append]

/-- The declaration in front of a sitemap. -/
def declarationText : Text := "<?xml version=\"1.0\" encoding=\"UTF-8\"?>".toList

/-- The attributes of the element around the entries. -/
def rootAttributes : List WrittenAttribute :=
  [Verify.quotedAttribute "xmlns".toList "http://www.sitemaps.org/schemas/sitemap/0.9".toList,
    ⟨"\n        ".toList, "xmlns:xhtml".toList, .quoted '"' "http://www.w3.org/1999/xhtml".toList⟩]

/-- The element around the entries. -/
def rootText (entries : List SitemapEntry) : Text :=
  startTagText "urlset".toList rootAttributes [] ++
    (entries.flatMap (fun entry ↦ escapeMarkup "\n  ".toList ++ entry.elementText) ++
      (escapeMarkup ['\n'] ++ endTagText "urlset".toList))

/-- A sitemap is a declaration and a line with one element. -/
theorem sitemap_text_eq (entries : List SitemapEntry) :
    sitemapText entries = declarationText ++ (escapeMarkup ['\n'] ++ rootText entries) ++ ['\n'] := by
  have hopen : "<urlset xmlns=\"http://www.sitemaps.org/schemas/sitemap/0.9\"\n".toList ++
      "        xmlns:xhtml=\"http://www.w3.org/1999/xhtml\">\n".toList =
        startTagText "urlset".toList rootAttributes [] ++ ['\n'] := rfl
  have hentries : entries.flatMap sitemapEntryText =
      entries.flatMap fun entry ↦ "  ".toList ++ entry.elementText ++ ['\n'] :=
    congrArg (entries.flatMap ·) (funext sitemap_entry_text_eq)
  have hlines := line_breaks_shift "  ".toList SitemapEntry.elementText entries "</urlset>\n".toList
  calc sitemapText entries
      = declarationText ++ ('\n' :: (startTagText "urlset".toList rootAttributes [] ++ '\n' ::
          (entries.flatMap (fun entry ↦ "  ".toList ++ entry.elementText ++ ['\n']) ++
            "</urlset>\n".toList))) := by
        unfold sitemapText
        rw [hentries, show "<?xml version=\"1.0\" encoding=\"UTF-8\"?>\n".toList =
          declarationText ++ ['\n'] from rfl, List.append_assoc (declarationText ++ ['\n']), hopen]
        simp only [List.append_assoc, List.cons_append, List.nil_append]
    _ = declarationText ++ (escapeMarkup ['\n'] ++ rootText entries) ++ ['\n'] := by
        rw [hlines]
        unfold rootText
        rw [show escapeMarkup "\n  ".toList = '\n' :: "  ".toList from rfl,
          show escapeMarkup ['\n'] = ['\n'] from rfl,
          show "</urlset>\n".toList = endTagText "urlset".toList ++ ['\n'] from rfl]
        simp only [List.append_assoc, List.cons_append, List.nil_append]

end Lines

section Nodes

open Builder

/-- The node of one value of an entry. -/
def valueNode (value : Text × Text) : Node :=
  .element value.1 [] (proseNodes value.2)

/-- The node of a link of an entry. -/
def versionNode (alternate : Alternate) : Node :=
  .element "xhtml:link".toList (Verify.alternateHeading alternate).2 []

/-- The nodes inside an entry. -/
def SitemapEntry.nodes (entry : SitemapEntry) : List Node :=
  entry.values.flatMap (fun value ↦ proseNodes "\n    ".toList ++ [valueNode value]) ++
    entry.alternates.flatMap (fun alternate ↦ proseNodes "\n      ".toList ++ [versionNode alternate]) ++
    proseNodes "\n  ".toList

/-- The element of an entry in the document. -/
def SitemapEntry.element (entry : SitemapEntry) : Element :=
  ⟨"url".toList, [], entry.nodes⟩

/-- The node of an entry. -/
def SitemapEntry.node (entry : SitemapEntry) : Node :=
  .element "url".toList [] entry.nodes

/-- The nodes around the entries of a sitemap. -/
def rootNodes (entries : List SitemapEntry) : List Node :=
  entries.flatMap (fun entry ↦ proseNodes "\n  ".toList ++ [entry.node]) ++ proseNodes ['\n']

/-- The document of a sitemap. -/
def sitemapNodes (entries : List SitemapEntry) : List Node :=
  [.string .instruction "xml version=\"1.0\" encoding=\"UTF-8\"?".toList, .string .prose ['\n'],
    .element "urlset".toList (elementAttributes (rootAttributes.map WrittenAttribute.meant))
      (rootNodes entries), .string .prose ['\n']]

/-- A value spells its node. -/
theorem spells_value {entry : SitemapEntry} {value : Text × Text} (h : value ∈ entry.values) :
    SpellsOne (valueText value) (valueNode value) := by
  have hnames : ∀ name ∈ entry.values.map Prod.fst, isProseName name = true := by
    show ∀ name ∈ ["loc".toList, "lastmod".toList, "changefreq".toList, "priority".toList],
      isProseName name = true
    decide
  have hname := prose_name_of_check (hnames _ (List.mem_map_of_mem h))
  exact spells_element hname (by simp) spells_nil value.2

/-- A link spells its node. -/
theorem spells_version (alternate : Alternate) :
    SpellsOne (versionText alternate) (versionNode alternate) := by
  have hquoted : ∀ written ∈ Verify.alternateAttributes alternate, IsQuoted written := fun written hmem ↦
    ⟨Verify.alternate_attributes_well_formed alternate written hmem, by
      simp only [Verify.alternateAttributes, List.mem_cons, List.not_mem_nil, or_false] at hmem
      rcases hmem with rfl | rfl | rfl <;> exact ⟨_, _, rfl⟩⟩
  have hnode := spells_empty_element (prose_name_of_check (by decide :
    isProseName "xhtml:link".toList = true)) hquoted
  have hattributes := congrArg Prod.snd (Verify.alternate_heading_eq alternate)
  rw [show elementAttributes ((Verify.alternateAttributes alternate).map WrittenAttribute.meant) =
    (Verify.alternateHeading alternate).2 from hattributes] at hnode
  exact hnode

/-- An entry spells its node. -/
theorem spells_entry (entry : SitemapEntry) : SpellsOne entry.elementText entry.node :=
  spells_element (prose_name_of_check (by decide)) (by simp)
    ((spells_lines "\n    ".toList fun _ hvalue ↦ spells_value hvalue).append
      (spells_lines "\n      ".toList fun alternate _ ↦ spells_version alternate)) "\n  ".toList

/-- The declaration is one node. -/
theorem spells_declaration : SpellsOne declarationText
    (.string .instruction "xml version=\"1.0\" encoding=\"UTF-8\"?".toList) := by
  refine ⟨⟨_, rfl⟩, fun rest ↦ ?_⟩
  have hread : readConstruct (declarationText ++ rest) = .complete ⟨declarationText,
      some (.instruction "xml version=\"1.0\" encoding=\"UTF-8\"?".toList)⟩ rest := by rfl
  exact ⟨_, reads_construct hread rfl, fun _ _ ↦ rfl⟩

/-- A sitemap is read as its document. -/
theorem document_sitemap (entries : List SitemapEntry) :
    document? (sitemapText entries) = some (sitemapNodes entries) := by
  have hattributes : ∀ written ∈ rootAttributes, written.IsWellFormed :=
    List.forall_mem_cons.mpr
      ⟨Verify.quoted_attribute_well_formed (by decide) (by decide) (by decide),
        List.forall_mem_singleton.mpr
          ⟨by decide, List.all_eq_true.mp (by decide), by decide, List.all_eq_true.mp (by decide),
            ⟨.inr rfl, by decide⟩⟩⟩
  have hroot := spells_element (prose_name_of_check (by decide : isProseName "urlset".toList = true))
    hattributes (spells_lines "\n  ".toList fun entry (_ : entry ∈ entries) ↦ spells_entry entry) ['\n']
  rw [sitemap_text_eq]
  exact document_of_spells ((spells_declaration.behind []).append (hroot.behind ['\n']))

end Nodes

section Reading

open Builder

/-- A text is no element. -/
theorem elements_prose (data : Text) : elementsOf (proseNodes data) = [] := by
  unfold proseNodes
  split
  · exact elementsOf.eq_1
  · rw [elementsOf, elementsOf, Node.elements]
    rfl

/-- The elements of lines are those of the nodes on them. -/
theorem elements_lines {α : Type} (indentation : Text) (meant : α → Node) (values : List α) :
    elementsOf (values.flatMap fun value ↦ proseNodes indentation ++ [meant value]) =
      values.flatMap fun value ↦ (meant value).elements := by
  induction values with
  | nil => exact elementsOf.eq_1
  | cons value values ih =>
      rw [List.flatMap_cons, elements_append, elements_append, elements_prose, ih, elementsOf, elementsOf,
        List.nil_append, List.append_nil, List.flatMap_cons]

/-- The element of one value of an entry in the document. -/
def valueElement (value : Text × Text) : Element :=
  ⟨value.1, [], proseNodes value.2⟩

/-- The element of a link of an entry in the document. -/
def versionElement (alternate : Alternate) : Element :=
  ⟨"xhtml:link".toList, (Verify.alternateHeading alternate).2, []⟩

/-- The elements inside an entry are its values and its links. -/
theorem elements_entry (entry : SitemapEntry) :
    elementsOf entry.nodes =
      entry.values.map valueElement ++ entry.alternates.map versionElement := by
  have hvalues : (entry.values.flatMap fun value ↦ (valueNode value).elements) =
      entry.values.map valueElement := by
    rw [List.map_eq_flatMap]
    refine List.flatMap_congr fun value _ ↦ ?_
    rw [valueNode, Node.elements, elements_prose]
    rfl
  have hlinks : (entry.alternates.flatMap fun alternate ↦ (versionNode alternate).elements) =
      entry.alternates.map versionElement := by
    rw [List.map_eq_flatMap]
    refine List.flatMap_congr fun alternate _ ↦ ?_
    rw [versionNode, Node.elements, elementsOf]
    rfl
  unfold SitemapEntry.nodes
  rw [elements_append, elements_append, elements_lines, elements_lines, elements_prose, hvalues, hlinks,
    List.append_nil]

/-- The entries among the elements of a document. -/
def entriesOf (document : List Node) : List Element :=
  (elementsOf document).filter fun element ↦ element.named "url"

/-- The entries in the document of a sitemap are the elements of its entries. -/
theorem entries_of_sitemap (entries : List SitemapEntry) :
    entriesOf (sitemapNodes entries) = entries.map SitemapEntry.element := by
  -- only the elements around the entries have their name
  have hinside (entry : SitemapEntry) :
      (elementsOf entry.nodes).filter (fun element ↦ element.named "url") = [] := by
    rw [elements_entry, List.filter_eq_nil_iff]
    intro element hmem
    rcases List.mem_append.mp hmem with hvalue | hlink
    · have hnames : ∀ name ∈ entry.values.map Prod.fst, (name == "url".toList) = false := by
        show ∀ name ∈ ["loc".toList, "lastmod".toList, "changefreq".toList, "priority".toList],
          (name == "url".toList) = false
        decide
      obtain ⟨value, hlisted, rfl⟩ := List.mem_map.mp hvalue
      exact Bool.eq_false_iff.mp (hnames _ (List.mem_map_of_mem hlisted))
    · obtain ⟨alternate, -, rfl⟩ := List.mem_map.mp hlink
      exact Bool.eq_false_iff.mp (by decide : ("xhtml:link".toList == "url".toList) = false)
  have hentry (entry : SitemapEntry) :
      entry.node.elements.filter (fun element ↦ element.named "url") = [entry.element] := by
    rw [SitemapEntry.node, Node.elements, List.filter_cons_of_pos (by rfl), hinside]
    rfl
  have hentries : (elementsOf (rootNodes entries)).filter (fun element ↦ element.named "url") =
      entries.map SitemapEntry.element := by
    unfold rootNodes
    rw [elements_append, elements_lines, elements_prose, List.append_nil, List.filter_flatMap,
      List.map_eq_flatMap]
    exact List.flatMap_congr fun entry _ ↦ hentry entry
  have haround (attributes : Entries Text) (children : List Node) :
      (⟨"urlset".toList, attributes, children⟩ : Element).named "url" = false := by
    show ("urlset".toList == "url".toList) = false
    decide
  unfold entriesOf sitemapNodes
  simp only [elementsOf, Node.elements, List.nil_append, List.append_nil, List.filter_cons, haround,
    Bool.false_eq_true, if_false]
  exact hentries

/-- The text inside the first element with a name. -/
def valueNamed? (elements : List Element) (name : String) : Option Text :=
  (elements.find? fun element ↦ element.named name).map fun element ↦
    (stringsOf element.children).flatMap Prod.snd

/-- The version of a page to which an element links. -/
def readLink? (element : Element) : Option Alternate := do
  guard (element.named "xhtml:link")
  return ⟨← element.attribute? "hreflang", ← element.attribute? "href"⟩

/-- The strings of a text are the text. -/
theorem strings_prose (data : Text) : (stringsOf (proseNodes data)).flatMap Prod.snd = data := by
  unfold proseNodes
  split
  · next hempty =>
      rw [stringsOf, hempty]
      rfl
  · simp only [stringsOf, Node.strings, List.append_nil, List.flatMap_cons, List.flatMap_nil]

/-- A value is found by its name among values and anything behind them. -/
theorem value_named {values : List (Text × Text)} {name : String} {value : Text × Text}
    (h : values.find? (fun value ↦ value.1 == name.toList) = some value) (others : List Element) :
    valueNamed? (values.map valueElement ++ others) name = some value.2 := by
  unfold valueNamed?
  rw [List.find?_append, List.find?_map]
  show Option.map _ (Option.or (Option.map valueElement
    (values.find? fun value ↦ value.1 == name.toList)) _) = _
  rw [h]
  exact congrArg some (strings_prose value.2)

/-- What an element says as an entry of a sitemap. -/
def readEntry? (element : Element) : Option SitemapEntry := do
  let inside := elementsOf element.children
  return ⟨← valueNamed? inside "loc", ← valueNamed? inside "lastmod", ← valueNamed? inside "changefreq",
    ← valueNamed? inside "priority", inside.filterMap readLink?⟩

/-- The element of an entry says the entry. -/
theorem read_entry (entry : SitemapEntry) : readEntry? entry.element = some entry := by
  have hvalues : (entry.values.map valueElement).filterMap readLink? = [] := rfl
  have hlinks : (entry.alternates.map versionElement).filterMap readLink? = entry.alternates := by
    rw [List.filterMap_map]
    exact List.filterMap_some
  have hinside : elementsOf entry.element.children =
      entry.values.map valueElement ++ entry.alternates.map versionElement := elements_entry entry
  unfold readEntry?
  simp only [hinside, List.filterMap_append, hvalues, hlinks, List.nil_append]
  have hnamed (name : String) {value : Text × Text}
      (h : entry.values.find? (fun value ↦ value.1 == name.toList) = some value) :=
    value_named h (entry.alternates.map versionElement)
  rw [hnamed "loc" rfl, hnamed "lastmod" rfl, hnamed "changefreq" rfl, hnamed "priority" rfl]
  rfl

/-- A sitemap is read as a document whose entries say those that were written. -/
theorem sitemap_reads_back (entries : List SitemapEntry) :
    ∃ document, document? (sitemapText entries) = some document ∧
      (entriesOf document).map readEntry? = entries.map some := by
  refine ⟨_, document_sitemap entries, ?_⟩
  rw [entries_of_sitemap, List.map_map]
  exact List.map_congr_left fun entry _ ↦ read_entry entry

end Reading

section Returns

/-- No value of an entry has a carriage return. -/
structure SitemapEntry.HasNoReturns (entry : SitemapEntry) : Prop where
  location : '\r' ∉ entry.location
  lastChange : '\r' ∉ entry.lastChange
  frequency : '\r' ∉ entry.frequency
  priority : '\r' ∉ entry.priority
  alternates : ∀ alternate ∈ entry.alternates, '\r' ∉ alternate.hreflang ∧ '\r' ∉ alternate.href

theorem return_not_mem_value {name value : Text} (hname : '\r' ∉ name) (hvalue : '\r' ∉ value) :
    '\r' ∉ sitemapValue name value := by
  have hescaped : '\r' ∉ '>' :: escapeMarkup value :=
    List.not_mem_cons_of_ne_of_not_mem (by decide) (Entity.return_not_mem_escape_markup hvalue)
  have hopen := List.not_mem_append (by decide : '\r' ∉ "    <".toList) hname
  have hclose := List.not_mem_append (by decide : '\r' ∉ "</".toList) hname
  unfold sitemapValue
  rw [List.append_assoc _ "</".toList name]
  exact List.not_mem_append (List.not_mem_append (List.not_mem_append hopen hescaped) hclose) (by decide)

theorem return_not_mem_link {alternate : Alternate} (hlanguage : '\r' ∉ alternate.hreflang)
    (haddress : '\r' ∉ alternate.href) : '\r' ∉ sitemapLink alternate :=
  List.not_mem_append (List.not_mem_append (List.not_mem_append (List.not_mem_append (by decide)
    (Entity.return_not_mem_escape_markup hlanguage)) (by decide))
    (Entity.return_not_mem_escape_markup haddress)) (by decide)

/-- A sitemap has carriage returns in the values of its entries only. -/
theorem return_not_mem_sitemap {entries : List SitemapEntry}
    (h : ∀ entry ∈ entries, entry.HasNoReturns) : '\r' ∉ sitemapText entries := by
  have hentry (entry : SitemapEntry) (hplain : entry.HasNoReturns) : '\r' ∉ sitemapEntryText entry := by
    have hlinks : '\r' ∉ entry.alternates.flatMap sitemapLink := by
      intro hmem
      obtain ⟨alternate, halternate, hmem⟩ := List.mem_flatMap.mp hmem
      obtain ⟨hlanguage, haddress⟩ := hplain.alternates alternate halternate
      exact return_not_mem_link hlanguage haddress hmem
    have hlocation := return_not_mem_value (by decide : '\r' ∉ "loc".toList) hplain.location
    have hchange := return_not_mem_value (by decide : '\r' ∉ "lastmod".toList) hplain.lastChange
    have hfrequency := return_not_mem_value (by decide : '\r' ∉ "changefreq".toList) hplain.frequency
    have hpriority := return_not_mem_value (by decide : '\r' ∉ "priority".toList) hplain.priority
    exact List.not_mem_append (List.not_mem_append (List.not_mem_append (List.not_mem_append
      (List.not_mem_append (List.not_mem_append (by decide) hlocation) hchange) hfrequency) hpriority)
      hlinks) (by decide)
  have hentries : '\r' ∉ entries.flatMap sitemapEntryText := by
    intro hmem
    obtain ⟨entry, hlisted, hmem⟩ := List.mem_flatMap.mp hmem
    exact hentry entry (h entry hlisted) hmem
  exact List.not_mem_append (List.not_mem_append (by decide) hentries) (by decide)

end Returns

end LocalizedSite.Render
