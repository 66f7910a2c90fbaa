import LocalizedSite.Proofs.Extract.Inserted
import LocalizedSite.Proofs.Extract.Origin
import LocalizedSite.Proofs.Text.Recut

/-!
# Links that are localized

Every link to a page in the last draft of an extraction gets the locale's path, so a template has no
such link without it. The texts that were taken before are in the dictionaries as they stood on the
page, and `extract_links_settled_iff` says which of them decide whether a link stays without the
locale's path: those from places that take markup, and those without any tag.
-/

namespace LocalizedSite.Extract

open Slot

section Template

/-- What stands before the path of a link, with the slash that begins the path. -/
def linkOpening : Text := "href=\"".toList ++ ['/']

/-- What ends a link. -/
def linkClosing : Text := ['"']

/-- The opening and the closing of a link do not overlap themselves. -/
theorem lone_link : Text.IsLone linkOpening ∧ Text.IsLone linkClosing :=
  ⟨⟨'h', "ref=\"/".toList, rfl, by decide⟩, ⟨'"', [], rfl, by decide⟩⟩

/-- The link of a slot whose opening has the first slash of the path. -/
def pathLink (slot : Slot) : Slot :=
  ⟨"href=\"".toList, '/' :: slot.content, linkClosing⟩

/-- A link is what stands between a quote with a slash behind it and the next quote. -/
theorem recognize_link_eq :
    recognizeLink = (between linkOpening linkClosing).mapFound pathLink := by
  funext text
  refine Option.ext fun ⟨slot, rest⟩ ↦ ?_
  simp only [recognizeLink, Recognizer.mapFound, Option.filter_eq_some_iff, Option.map_eq_some_iff]
  constructor
  · rintro ⟨hrun, hslash⟩
    obtain ⟨hopening, hclosing, rfl, hallowed⟩ := run_eq_some hrun
    obtain ⟨path, hpath⟩ := Text.starts_with_iff.mp hslash
    obtain ⟨opening, content, closing⟩ := slot
    obtain rfl : opening = "href=\"".toList := hopening
    obtain rfl : closing = linkClosing := hclosing
    obtain rfl : '/' :: path = content := hpath
    have hfree : ¬ linkClosing <:+: path := by
      intro hinfix
      have hmem : '"' ∈ path := (List.singleton_infix_iff _ _).mp hinfix
      simpa using hallowed '"' (List.mem_cons_of_mem _ hmem)
    have hread := between_append lone_link.2 linkOpening rest hfree
    refine ⟨_, Eq.trans (congrArg _ ?_) hread, rfl⟩
    simp only [Slot.text_eq, linkOpening, List.append_assoc, List.cons_append, List.nil_append]
  · rintro ⟨⟨inner, behind⟩, hbetween, heq⟩
    have hfree := content_free lone_link.2 hbetween
    obtain ⟨hopening, hclosing, rfl⟩ := between_eq_some hbetween
    obtain ⟨rfl, rfl⟩ := Prod.mk.inj heq
    have hallowed : ∀ character ∈ '/' :: inner.content, (character != '"') = true := by
      intro character hmem
      rcases List.mem_cons.mp hmem with rfl | hmem
      · decide
      · refine bne_iff_ne.mpr fun hquote ↦ hfree ?_
        exact (List.singleton_infix_iff _ _).mpr (hquote ▸ hmem)
    have hread := run_append "href=\"".toList behind [] hallowed (show ('"' != '"') = false from rfl)
    refine ⟨Eq.trans (congrArg _ ?_) hread, rfl⟩
    simp only [Slot.text_eq, hopening, hclosing, linkOpening, linkClosing, List.append_assoc,
      List.cons_append, List.nil_append]

/-- The slot of a link as it stands in a template. -/
def localizedSlot (slot : Slot) : Slot :=
  ⟨linkOpening,
    if isPageLink ('/' :: slot.content) then Structural.text .localePath ++ slot.content
    else slot.content, linkClosing⟩

/-- A link is written in a template as its slot says. -/
theorem template_path_link (slot : Slot) :
    templateLink (pathLink slot) = (localizedSlot slot).text := by
  by_cases hpage : isPageLink ('/' :: slot.content) = true
  · rw [templateLink, pathLink, if_pos hpage, localizedSlot, if_pos hpage]
    simp only [withContent, Slot.text_eq, localizedPath, linkOpening, List.append_assoc,
      List.cons_append, List.nil_append, List.drop_succ_cons, List.drop_zero]
  · rw [templateLink, pathLink, if_neg hpage, localizedSlot, if_neg hpage]
    simp only [Slot.text_eq, linkOpening, List.append_assoc, List.cons_append, List.nil_append]

/-- The link of a slot in a template does not lead to a page without the locale's path. -/
theorem not_page_link_localized (slot : Slot) :
    isPageLink (pathLink (localizedSlot slot)).content = false := by
  simp only [localizedSlot, pathLink]
  split
  · have hplaceholder : Placeholder.occursIn
        ('/' :: (Structural.text .localePath ++ slot.content)) = true :=
      Placeholder.occurs_in_iff.mpr ⟨['/'], "localePath\x7d\x7d".toList ++ slot.content, rfl⟩
    simp only [isPageLink, hplaceholder, Bool.not_true, Bool.and_false, Bool.false_and]
  · next hpage => simpa using hpage

/-- A slot in a template ends where its link ends. -/
theorem localized_slot_free {slot : Slot} (h : ¬ linkClosing <:+: slot.content) :
    ¬ linkClosing <:+: (localizedSlot slot).content := by
  simp only [localizedSlot, linkClosing, List.singleton_infix_iff] at h ⊢
  split
  · exact fun hmem ↦ (List.mem_append.mp hmem).elim unquoted_local_path h
  · exact h

/-- A template has no link to a page without the locale's path in front. -/
theorem links_settled_localize (html : Text) : LinksSettled (localizeLinks html) := by
  obtain ⟨hbetween, hfree⟩ := Cuts.is_between_all lone_link.1 lone_link.2 html
  have hlocalized : localizeLinks html =
      ((Cuts.all (between linkOpening linkClosing) html).map localizedSlot).text Slot.text := by
    simp only [localizeLinks, recognize_link_eq, Cuts.all_map_found, Cuts.text_map,
      template_path_link]
  -- The new contents have no quote, so that the template is cut at the same places.
  have hrecut := Cuts.recut_eq lone_link.1 lone_link.2
    (hbetween.map localizedSlot (fun _ ↦ rfl) fun _ ↦ rfl) fun piece hmem ↦ by
      obtain ⟨old, hold, rfl⟩ := List.mem_map.mp hmem
      exact localized_slot_free (hfree old hold)
  rw [Cuts.recut, ← hlocalized] at hrecut
  intro slot hmem
  rw [recognize_link_eq, Cuts.all_map_found, hrecut, Cuts.occurrences_map, Cuts.occurrences_map,
    List.map_map] at hmem
  obtain ⟨old, -, rfl⟩ := List.mem_map.mp hmem
  exact not_page_link_localized old

end Template

section Texts

instance (html : Text) : Decidable (LinksSettled html) :=
  inferInstanceAs (Decidable (∀ slot ∈ (Cuts.all recognizeLink html).occurrences,
    isPageLink slot.content = false))

/-- A text without a quote has no link. -/
theorem links_settled_of_unquoted {text : Text} (h : '"' ∉ text) : LinksSettled text := by
  have hnone : recognizeLink.first? text = none := by
    refine Recognizer.first_eq_none.mpr fun front character back hsplit ↦ ?_
    cases hread : recognizeLink (character :: back) with
    | none => rfl
    | some result =>
        obtain ⟨slot, rest⟩ := result
        obtain ⟨hopening, -, htext, -⟩ := run_eq_some (Option.filter_eq_some_iff.mp hread).1
        refine absurd ?_ h
        rw [hsplit, htext, Slot.text_eq, hopening]
        simp
  intro slot hmem
  rw [Cuts.all_of_first_none hnone] at hmem
  exact absurd hmem List.not_mem_nil

/-- A key of the page under which a text may be taken with its markup. -/
def IsMarkupKey (key : Text) : Prop :=
  key = "meta_title".toList ∨ IsElementKey key ∨ IsLinkedDataKey key

/-- A shared entry whose text may have markup: a label of the vocabulary or the discount text. -/
def IsMarkupEntry (vocabulary : Vocabulary) (entry : Text × Text) : Prop :=
  entry.1 = "region_discount_text".toList ∨ (entry.2, entry.1) ∈ vocabulary.labels

/-- A text of the page has a tag only under a key for markup, unless it is the value of an attribute
and so has no link. -/
theorem Origin.own_cases {vocabulary : Vocabulary} {key text : Text}
    (h : Origin vocabulary ⟨.own, key, text⟩) :
    IsMarkupKey key ∨ '"' ∉ text ∨ '<' ∉ text := by
  cases h with
  | title => exact .inl (.inl rfl)
  | value _ _ hunquoted => exact .inr (.inl hunquoted)
  | linkedData block hfield number => exact .inl (.inr (.inr ⟨block, _, hfield, number, rfl⟩))
  | element helement number => exact .inl (.inr (.inl ⟨_, helement, number, rfl⟩))
  | classed _ _ _ huntagged => exact .inr (.inr huntagged)

/-- A shared text has a tag only in an entry for markup, unless it is the value of an attribute and
so has no link. -/
theorem Origin.shared_cases {vocabulary : Vocabulary} {key text : Text}
    (h : Origin vocabulary ⟨.shared, key, text⟩) :
    IsMarkupEntry vocabulary (key, text) ∨ '"' ∉ text ∨ '<' ∉ text := by
  cases h with
  | header _ huntagged => exact .inr (.inr huntagged)
  | cell _ hunquoted => exact .inr (.inl hunquoted)
  | label hlabel => exact .inl (.inr hlabel)
  | place _ _ huntagged => exact huntagged.imp .inl .inr

/-- After an extraction of a page that is no redirect, the template has no link to a page without the
locale's path in front. The texts have none exactly when there is none in those that may be taken
with their markup, which are the title, the headings and paragraphs, the texts of linked data, the
discount text and the labels of the vocabulary, and none in those without any tag. -/
theorem extract_links_settled_iff {page : Page} {vocabulary : Vocabulary} {brand html : Text}
    {extraction : Extraction} (hredirect : page.redirectTo = none)
    (h : extractPage? page vocabulary brand html = some extraction) :
    LinksSettled extraction.template ∧
      ((∀ entry ∈ extraction.page ++ extraction.shared, LinksSettled entry.2) ↔
        (∀ entry ∈ extraction.page, IsMarkupKey entry.1 → LinksSettled entry.2) ∧
          (∀ entry ∈ extraction.shared, IsMarkupEntry vocabulary entry → LinksSettled entry.2) ∧
          ∀ entry ∈ extraction.page ++ extraction.shared, '<' ∉ entry.2 → LinksSettled entry.2) := by
  obtain ⟨hown, hshared⟩ := extract_origin h
  obtain ⟨run, rfl⟩ := exists_run_of_page hredirect h
  refine ⟨links_settled_localize run.popped.1, fun hall ↦ ⟨?_, ?_, ?_⟩, ?_⟩
  · exact fun entry hmem _ ↦ hall entry (List.mem_append_left _ hmem)
  · exact fun entry hmem _ ↦ hall entry (List.mem_append_right _ hmem)
  · exact fun entry hmem _ ↦ hall entry hmem
  · rintro ⟨hmarkup, hentry, huntagged⟩ entry hmem
    rcases List.mem_append.mp hmem with hpage | hpage
    · rcases (hown entry hpage).own_cases with hkey | hfree | hfree
      · exact hmarkup entry hpage hkey
      · exact links_settled_of_unquoted hfree
      · exact huntagged entry hmem hfree
    · rcases (hshared entry hpage).shared_cases with hkey | hfree | hfree
      · exact hentry entry hpage hkey
      · exact links_settled_of_unquoted hfree
      · exact huntagged entry hmem hfree

/-- The link of a paragraph is taken with it and stays without the locale's path. -/
theorem extract_leaves_paragraph_link :
    let page : Page := ⟨"home".toList, "home.html".toList, "home.html".toList, none⟩
    let html := "<p>Read <a href=\"/about\">about us</a> today.</p>".toList
    let extraction : Extraction := ⟨"<p>\x7b\x7bt.home.p\x7d\x7d</p>".toList,
      [("p".toList, "Read <a href=\"/about\">about us</a> today.".toList)], []⟩
    page.redirectTo = none ∧ extractPage? page .standard [] html = some extraction ∧
      LinksSettled extraction.template ∧
      ¬ ∀ entry ∈ extraction.page ++ extraction.shared, LinksSettled entry.2 := by
  intro page html extraction
  have hrun : extractPage? page .standard [] html = some extraction := by decide +kernel
  obtain ⟨htemplate, hiff⟩ := extract_links_settled_iff rfl hrun
  refine ⟨rfl, hrun, htemplate, fun hall ↦ ?_⟩
  have hparagraph := (hiff.mp hall).1 _ (List.mem_singleton_self _)
    (.inr (.inl ⟨"p".toList, by decide, 1, rfl⟩))
  exact absurd hparagraph (by decide +kernel)

end Texts

end LocalizedSite.Extract
