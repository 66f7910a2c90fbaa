import LocalizedSite.Proofs.Html.ClosedTag
import LocalizedSite.Proofs.Html.Elements

/-!
# Written markup as nodes

Markup spells nodes (`Spells`) if its tokens add these nodes to any document under construction. Elements
with an end tag, elements closed within their tag, and lines of such elements spell what they are written
for (`spells_element`, `spells_empty_element`, `spells_lines`), and markup that spells nodes is read as a
document of them (`document_of_spells`).
-/

namespace LocalizedSite.Html

open Render

namespace Builder

variable {builder : Builder}

/-- A document under construction that takes prose: no end tag is to be skipped, and every open element
holds prose. -/
structure IsReady (builder : Builder) : Prop where
  skipped : builder.skipped = []
  prose : builder.insideContainer = false

/-- Add finished nodes to the innermost open element, one after another. -/
def addAll (nodes : List Node) (builder : Builder) : Builder :=
  nodes.foldl (fun builder node ↦ builder.add node) builder

/-- Nodes that are added to an open element become its children. -/
theorem add_all_open (nodes : List Node) (frame : Frame) (frames : List Frame) (roots : List Node)
    (pieces skipped : List Text) :
    addAll nodes ⟨frame :: frames, roots, pieces, skipped⟩ =
      ⟨{ frame with children := nodes.reverse ++ frame.children } :: frames, roots, pieces, skipped⟩ := by
  induction nodes generalizing frame with
  | nil => rfl
  | cons node nodes ih =>
      show addAll nodes ⟨{ frame with children := node :: frame.children } :: frames, roots, pieces,
        skipped⟩ = _
      rw [ih]
      simp

/-- Outside of every element, nodes that are added become roots. -/
theorem add_all_roots (nodes roots : List Node) (pieces skipped : List Text) :
    addAll nodes ⟨[], roots, pieces, skipped⟩ = ⟨[], nodes.reverse ++ roots, pieces, skipped⟩ := by
  induction nodes generalizing roots with
  | nil => rfl
  | cons node nodes ih =>
      show addAll nodes ⟨[], node :: roots, pieces, skipped⟩ = _
      rw [ih]
      simp

/-- Nodes that are added after others. -/
theorem add_all_append (first second : List Node) (builder : Builder) :
    addAll (first ++ second) builder = addAll second (addAll first builder) :=
  List.foldl_append

/-- Adding a node leaves a document ready, and the open string as it is. -/
theorem IsReady.add (h : builder.IsReady) (node : Node) :
    (builder.add node).IsReady ∧ (builder.add node).pieces = builder.pieces := by
  obtain ⟨frames, roots, pieces, skipped⟩ := builder
  cases frames with
  | nil => exact ⟨⟨h.skipped, h.prose⟩, rfl⟩
  | cons frame frames => exact ⟨⟨h.skipped, h.prose⟩, rfl⟩

/-- Adding nodes leaves a document ready, and the open string as it is. -/
theorem IsReady.add_all (h : builder.IsReady) (nodes : List Node) :
    (builder.addAll nodes).IsReady ∧ (builder.addAll nodes).pieces = builder.pieces := by
  induction nodes generalizing builder with
  | nil => exact ⟨h, rfl⟩
  | cons node nodes ih =>
      obtain ⟨hready, hpieces⟩ := h.add node
      obtain ⟨hall, hrest⟩ := ih hready
      exact ⟨hall, hrest.trans hpieces⟩

/-- Without an open string there is nothing to finish. -/
theorem flush_of_nil (h : builder.pieces = []) : builder.flush = builder := by
  unfold flush
  rw [h]
  rfl

/-- A finished string leaves no open one, and a document ready. -/
theorem IsReady.flush (h : builder.IsReady) : builder.flush.IsReady ∧ builder.flush.pieces = [] := by
  unfold Builder.flush
  split
  · next hempty => exact ⟨h, List.isEmpty_iff.mp hempty⟩
  · have hready : ({ builder with pieces := [] } : Builder).IsReady := ⟨h.skipped, h.prose⟩
    exact hready.add _

/-- The nodes of a text: one string, if it is not empty. -/
def proseNodes (data : Text) : List Node :=
  if data = [] then [] else [.string .prose data]

/-- Runs of text make one open string. -/
theorem take_texts (pieces : List Text) (builder : Builder) :
    (pieces.map Token.text).foldl take builder =
      { builder with pieces := pieces.reverse ++ builder.pieces } := by
  induction pieces generalizing builder with
  | nil => rfl
  | cons piece pieces ih =>
      rw [List.map_cons, List.foldl_cons, ih]
      simp [take]

/-- Runs of text are one string when it is finished. -/
theorem flush_texts {lexemes : List Lexeme} {data : Text} (hdata : AreText lexemes data)
    (hready : builder.IsReady) (hpieces : builder.pieces = []) :
    ((lexemes.filterMap Lexeme.token).foldl take builder).flush = builder.addAll (proseNodes data) ∧
      ((lexemes.filterMap Lexeme.token).foldl take builder).IsReady := by
  obtain ⟨pieces, htokens, rfl, hnone⟩ := hdata
  rw [htokens, take_texts, hpieces, List.append_nil]
  refine ⟨?_, hready.skipped, hready.prose⟩
  unfold flush
  by_cases hempty : pieces = []
  · rw [hempty]
    obtain ⟨frames, roots, held, skipped⟩ := builder
    obtain rfl : held = [] := hpieces
    rfl
  · have hflatten : pieces.flatten ≠ [] := by
      rw [List.flatten_ne_nil_iff]
      obtain ⟨piece, others, rfl⟩ := List.exists_cons_of_ne_nil hempty
      exact ⟨piece, List.mem_cons_self .., fun h ↦ hnone (h ▸ List.mem_cons_self ..)⟩
    have hprose : insideContainer { builder with pieces := pieces.reverse } = false := hready.prose
    obtain ⟨frames, roots, held, skipped⟩ := builder
    obtain rfl : held = [] := hpieces
    simp only [List.isEmpty_reverse, List.isEmpty_iff, hempty, if_false, hprose, Bool.false_eq_true,
      List.reverse_reverse, proseNodes, hflatten]
    rfl

/-- The innermost open element is closed by its end tag. -/
theorem finish_innermost {name : Text} {attributes : Entries Text} {children : List Node}
    {frames : List Frame} (hskipped : builder.skipped = [])
    (hframes : builder.flush.frames = ⟨name, attributes, children⟩ :: frames) :
    finish name builder =
      add (.element name attributes children.reverse) { builder.flush with frames } := by
  unfold finish close
  rw [hskipped]
  simp only [List.contains_nil, Bool.false_eq_true, if_false, hframes, List.findIdx?_cons, beq_self_eq_true,
    if_true]
  unfold closeMany closeMany closeInnermost
  rw [hframes]

end Builder

/-- Markup whose tokens add these nodes to a document, in front of anything. -/
def Spells (text : Text) (nodes : List Node) : Prop :=
  ∀ rest, ∃ lexemes, Reads .decoded none (text ++ rest) lexemes none rest ∧
    ∀ builder : Builder, builder.IsReady → builder.pieces = [] →
      (lexemes.filterMap Lexeme.token).foldl Builder.take builder = builder.addAll nodes

/-- Markup in front of which the open string is finished, and whose tokens then add this node. -/
structure SpellsOne (text : Text) (node : Node) : Prop where
  begins : ∃ tail, text = '<' :: tail
  adds : ∀ rest, ∃ lexemes, Reads .decoded none (text ++ rest) lexemes none rest ∧
    ∀ builder : Builder, builder.IsReady →
      (lexemes.filterMap Lexeme.token).foldl Builder.take builder = builder.flush.add node

section Spelling

variable {text other : Text} {node : Node} {nodes others : List Node}

/-- Nothing spells no nodes. -/
theorem spells_nil : Spells [] [] :=
  fun rest ↦ ⟨[], .here none rest, fun _ _ _ ↦ rfl⟩

/-- Markup after markup. -/
theorem Spells.append (h : Spells text nodes) (hother : Spells other others) :
    Spells (text ++ other) (nodes ++ others) := by
  intro rest
  obtain ⟨first, hfirst, htake⟩ := h (other ++ rest)
  obtain ⟨second, hsecond, hnext⟩ := hother rest
  refine ⟨first ++ second, by rw [List.append_assoc]; exact hfirst.trans hsecond, ?_⟩
  intro builder hready hpieces
  obtain ⟨hgrown, hsame⟩ := hready.add_all nodes
  rw [List.filterMap_append, List.foldl_append, htake builder hready hpieces,
    hnext _ hgrown (hsame.trans hpieces), Builder.add_all_append]

/-- A text in front of markup that finishes it. -/
theorem SpellsOne.behind (h : SpellsOne text node) (data : Text) :
    Spells (escapeMarkup data ++ text) (Builder.proseNodes data ++ [node]) := by
  intro rest
  obtain ⟨tail, htail⟩ := h.begins
  obtain ⟨runs, hruns, hdata⟩ := reads_escaped data (tail ++ rest)
  obtain ⟨lexemes, hreads, hadds⟩ := h.adds rest
  have hbehind : escapeMarkup data ++ text ++ rest = escapeMarkup data ++ '<' :: (tail ++ rest) := by
    rw [htail]
    simp
  rw [htail] at hreads
  refine ⟨runs ++ lexemes, by rw [hbehind]; exact hruns.trans hreads, ?_⟩
  intro builder hready hpieces
  obtain ⟨hflush, htaken⟩ := Builder.flush_texts hdata hready hpieces
  rw [List.filterMap_append, List.foldl_append, hadds _ htaken, hflush, Builder.add_all_append]
  rfl

/-- A name of an element whose content is prose. -/
structure IsProseName (name : Text) : Prop extends IsElementName name where
  notVoid : voidElements.contains name = false
  notRaw : rawTextElements.contains name = false
  notContainer : containerElements.contains name = false

/-- Whether a name is one of an element whose content is prose. -/
def isProseName (name : Text) : Bool :=
  name.head?.any Text.isLatinLetter && !name.any endsTagName && Text.lower name == name &&
    plainEndName? name == some name && !name.any (· == '>') && !voidElements.contains name &&
    !rawTextElements.contains name && !containerElements.contains name

/-- A name that is found to be one is one. -/
theorem prose_name_of_check {name : Text} (h : isProseName name = true) : IsProseName name := by
  simp only [isProseName, Bool.and_eq_true, Bool.not_eq_true', beq_iff_eq, Option.any_eq_true] at h
  obtain ⟨⟨⟨⟨⟨⟨⟨⟨initial, hhead, hletter⟩, hallowed⟩, hlower⟩, hends⟩, hplain⟩, hvoid⟩, hraw⟩, hcontainer⟩ := h
  obtain ⟨others, rfl⟩ := List.head?_eq_some_iff.mp hhead
  have hnone {test : Char → Bool} (hany : (initial :: others).any test = false) :
      ∀ character ∈ initial :: others, test character = false := fun character hmem ↦
    Bool.eq_false_iff.mpr (List.any_eq_false.mp hany character hmem)
  exact ⟨⟨⟨⟨initial, others, rfl, hletter⟩, hnone hallowed⟩, hlower, hends,
    fun hmem ↦ absurd (hnone hplain _ hmem) (by simp)⟩, hvoid, hraw, hcontainer⟩

/-- An element that is opened comes behind the open string, and takes prose. -/
theorem open_element_eq {name : Text} (hname : IsProseName name) {builder : Builder}
    (hready : builder.IsReady) (attributes : List Attribute) :
    builder.openElement name attributes = ⟨⟨name, elementAttributes attributes, []⟩ :: builder.flush.frames,
        builder.flush.roots, [], []⟩ ∧ (builder.openElement name attributes).IsReady := by
  obtain ⟨hflush, hpieces⟩ := hready.flush
  have heq : builder.openElement name attributes =
      ⟨⟨name, elementAttributes attributes, []⟩ :: builder.flush.frames, builder.flush.roots,
        builder.flush.pieces, builder.flush.skipped⟩ := rfl
  rw [hpieces, hflush.skipped] at heq
  refine ⟨heq, by rw [heq], ?_⟩
  rw [heq]
  show (containerElements.contains name || builder.flush.insideContainer) = false
  rw [hname.notContainer, hflush.prose]
  rfl

/-- The parts of a ready document without an open string. -/
theorem flush_eta {builder : Builder} (hready : builder.IsReady) :
    (⟨builder.flush.frames, builder.flush.roots, [], []⟩ : Builder) = builder.flush := by
  obtain ⟨hflush, hpieces⟩ := hready.flush
  have hskipped := hflush.skipped
  generalize builder.flush = finished at hpieces hskipped ⊢
  obtain ⟨frames, roots, pieces, skipped⟩ := finished
  obtain rfl : pieces = [] := hpieces
  obtain rfl : skipped = [] := hskipped
  rfl

/-- An element with content, and a text at its end. -/
theorem spells_element {name : Text} (hname : IsProseName name) {attributes : List WrittenAttribute}
    (hattributes : ∀ written ∈ attributes, written.IsWellFormed) (h : Spells text nodes) (data : Text) :
    SpellsOne (startTagText name attributes [] ++ (text ++ (escapeMarkup data ++ endTagText name)))
      (.element name (elementAttributes (attributes.map WrittenAttribute.meant))
        (nodes ++ Builder.proseNodes data)) := by
  refine ⟨⟨_, rfl⟩, fun rest ↦ ?_⟩
  obtain ⟨source, hstart⟩ := @reads_start_tag .decoded name [] hname.toIsTagName
    (by rw [hname.lower]; exact hname.notRaw) _ hattributes (by simp)
    (text ++ (escapeMarkup data ++ (endTagText name ++ rest)))
  obtain ⟨content, hcontent, hadds⟩ := h (escapeMarkup data ++ (endTagText name ++ rest))
  obtain ⟨runs, hruns, hdata⟩ := reads_escaped data ("/".toList ++ name ++ ['>'] ++ rest)
  obtain ⟨last, hend⟩ := @reads_end_tag .decoded _ hname.toIsElementName rest
  have hreads := hstart.trans (hcontent.trans (hruns.trans hend))
  refine ⟨_, by simpa using hreads, fun builder hready ↦ ?_⟩
  obtain ⟨hopened, hinside⟩ := open_element_eq hname hready (attributes.map WrittenAttribute.meant)
  obtain ⟨hfull, hpieces⟩ := hinside.add_all nodes
  have hnone : (builder.openElement name (attributes.map WrittenAttribute.meant)).pieces = [] := by
    rw [hopened]
  obtain ⟨hflush, htaken⟩ := Builder.flush_texts hdata hfull (hpieces.trans hnone)
  have htag : builder.take (.start name (attributes.map WrittenAttribute.meant) false) =
      builder.openElement name (attributes.map WrittenAttribute.meant) := by
    simp only [Builder.take, hname.notVoid, Bool.false_eq_true, if_false]
  simp only [List.filterMap_cons, List.filterMap_append, List.foldl_cons,
    List.foldl_append, List.filterMap_nil, List.foldl_nil, hname.lower, htag, hadds _ hinside hnone]
  rw [← Builder.add_all_append] at hflush
  rw [hopened] at hflush htaken ⊢
  have hclosed := hflush.trans (Builder.add_all_open _ _ _ _ _ _)
  show Builder.finish name _ = _
  rw [Builder.finish_innermost htaken.skipped (by rw [hclosed]), hclosed]
  simp only [List.append_nil, List.reverse_reverse, flush_eta hready]

/-- An element that is closed within its tag. -/
theorem spells_empty_element {name : Text} (hname : IsProseName name) {attributes : List WrittenAttribute}
    (hattributes : ∀ written ∈ attributes, IsQuoted written) :
    SpellsOne (emptyTagText name attributes)
      (.element name (elementAttributes (attributes.map WrittenAttribute.meant)) []) := by
  refine ⟨⟨_, rfl⟩, fun rest ↦ ?_⟩
  obtain ⟨source, hreads⟩ := @reads_empty_tag .decoded name hname.toIsTagName _ hattributes rest
  refine ⟨_, hreads, fun builder hready ↦ ?_⟩
  obtain ⟨hopened, hinside⟩ := open_element_eq hname hready (attributes.map WrittenAttribute.meant)
  have hnone : (builder.openElement name (attributes.map WrittenAttribute.meant)).pieces = [] := by
    rw [hopened]
  have htag : builder.take (.start name (attributes.map WrittenAttribute.meant) true) =
      Builder.finish name (builder.openElement name (attributes.map WrittenAttribute.meant)) := by
    simp only [Builder.take, if_true]
  have hflush := Builder.flush_of_nil hnone
  simp only [List.filterMap_cons, List.filterMap_nil, List.foldl_cons, List.foldl_nil, hname.lower, htag]
  rw [Builder.finish_innermost hinside.skipped (by rw [hflush, hopened]), hflush, hopened]
  simp only [List.reverse_nil, flush_eta hready]

/-- Lines of markup, each behind a line break with its indentation. -/
theorem spells_lines {α : Type} {written : α → Text} {meant : α → Node} (indentation : Text)
    {values : List α} (h : ∀ value ∈ values, SpellsOne (written value) (meant value)) :
    Spells (values.flatMap fun value ↦ escapeMarkup indentation ++ written value)
      (values.flatMap fun value ↦ Builder.proseNodes indentation ++ [meant value]) := by
  induction values with
  | nil => exact spells_nil
  | cons value values ih =>
      obtain ⟨hvalue, hvalues⟩ := List.forall_mem_cons.mp h
      exact (hvalue.behind indentation).append (ih hvalues)

/-- Markup that spells nodes, with a line break behind it, is read as a document of them. -/
theorem document_of_spells (h : Spells text nodes) :
    document? (text ++ ['\n']) = some (nodes ++ [.string .prose ['\n']]) := by
  obtain ⟨lexemes, hreads, hadds⟩ := h ['\n']
  have hready : Builder.empty.IsReady := ⟨rfl, rfl⟩
  have hbreak : lex? .decoded ['\n'] = some [.ofText ['\n']] := by decide
  unfold document?
  rw [hreads.lex, hbreak]
  simp only [Option.map_some, List.filterMap_append, List.foldl_append, hadds _ hready rfl]
  have hroots : Builder.addAll nodes .empty = ⟨[], nodes.reverse, [], []⟩ := by
    have hall := Builder.add_all_roots nodes [] [] []
    rwa [List.append_nil] at hall
  rw [hroots]
  show some (Node.string .prose ['\n'] :: nodes.reverse).reverse = _
  rw [List.reverse_cons, List.reverse_reverse]

end Spelling

end LocalizedSite.Html
