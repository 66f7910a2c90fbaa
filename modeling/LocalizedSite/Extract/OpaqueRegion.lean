import LocalizedSite.Html.Lexer

/-!
# Opaque regions

Script and style elements, footers, and region popups are not body text. A region runs from the
line on which its start tag begins to the line on which its end tag begins; inside a region only
tags of the same name are counted, to find its end, and a region that is never closed runs to the end
of the document. Lines are counted from zero.
-/

namespace LocalizedSite.Extract

open Html

/-- The classes that make an element opaque. -/
def opaqueClasses : List Text :=
  ["footer".toList, "region-popup".toList, "region-popup-content".toList]

/-- The elements that are opaque by name. -/
def opaqueElements : List Text :=
  ["script".toList, "style".toList, "footer".toList]

/-- Whether an attribute gives an element an opaque class. -/
def hasOpaqueClass : Attribute → Bool
  | (name, some value) =>
    name == "class".toList && (Text.words value).any fun word ↦ opaqueClasses.contains word
  | (_, none) => false

/-- Whether a start tag opens an opaque region. -/
def opensRegion (name : Text) (attributes : List Attribute) : Bool :=
  opaqueElements.contains name || attributes.any hasOpaqueClass

/-- A region of lines; without a last line it runs to the end of the document. -/
structure Region where
  /-- The first line. -/
  first : Nat
  /-- The last line, if the region is closed. -/
  last : Option Nat
deriving DecidableEq, Repr

/-- Whether a line belongs to a region. -/
def Region.covers (region : Region) (line : Nat) : Bool :=
  region.first ≤ line && region.last.all fun last ↦ line ≤ last

/-- An open region: the element that opened it, its first line, and the open elements of that name
inside it, the element itself included. -/
structure OpenRegion where
  /-- The name of the element. -/
  name : Text
  /-- The line on which its start tag begins. -/
  first : Nat
  /-- The number of open elements of that name. -/
  depth : Nat
deriving DecidableEq, Repr

/-- The state of the search for regions. -/
structure RegionScan where
  /-- The line at which the next lexeme begins. -/
  line : Nat
  /-- The open region. -/
  current : Option OpenRegion
  /-- The closed regions, last first. -/
  closed : List Region

namespace RegionScan

/-- Take a start tag. -/
def start (scan : RegionScan) (name : Text) (attributes : List Attribute) : RegionScan :=
  match scan.current with
  | some region =>
    if name = region.name then
      { scan with current := some { region with depth := region.depth + 1 } }
    else scan
  | none =>
    if opensRegion name attributes then { scan with current := some ⟨name, scan.line, 1⟩ }
    else scan

/-- Take an end tag. -/
def finish (scan : RegionScan) (name : Text) : RegionScan :=
  match scan.current with
  | some region =>
    if name = region.name then
      if region.depth ≤ 1 then
        { scan with
          current := none
          closed := ⟨region.first, some scan.line⟩ :: scan.closed }
      else { scan with current := some { region with depth := region.depth - 1 } }
    else scan
  | none => scan

/-- Take a lexeme. -/
def take (scan : RegionScan) (lexeme : Lexeme) : RegionScan :=
  let after :=
    match lexeme.token with
    | some (.start name attributes selfClosing) =>
      let opened := scan.start name attributes
      if selfClosing then opened.finish name else opened
    | some (.finish name) => scan.finish name
    | _ => scan
  { after with line := scan.line + lexeme.source.count '\n' }

/-- The regions of a document that ends here. -/
def regions (scan : RegionScan) : List Region :=
  scan.closed.reverse ++ scan.current.toList.map fun region ↦ ⟨region.first, none⟩

end RegionScan

/-- The opaque regions of a document, or nothing if the document is rejected. -/
def opaqueRegions? (text : Text) : Option (List Region) :=
  (lex? .kept text).map fun lexemes ↦
    (lexemes.foldl RegionScan.take (⟨0, none, []⟩ : RegionScan)).regions

/-- The opaque lines of a document in order, or nothing if the document is rejected. -/
def opaqueLines? (text : Text) : Option (List Nat) :=
  (opaqueRegions? text).map fun regions ↦
    (List.range (text.count '\n' + 1)).filter fun line ↦
      regions.any fun region ↦ region.covers line

end LocalizedSite.Extract
