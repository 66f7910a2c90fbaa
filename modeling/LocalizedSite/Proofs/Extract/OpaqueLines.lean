import LocalizedSite.Extract.OpaqueRegion
import LocalizedSite.Html.Document
import LocalizedSite.Proofs.Html.Reading

/-!
# Opaque lines of nested markup

In nested markup every element is closed behind its content, or is an element by its tag alone. Its opaque
lines are those of its opaque elements, each from the line of its start tag to the line of its end tag,
and the lines behind a stray: an opaque void element outside of opaque elements, whose region no end tag
closes (`opaque_lines_nested`). Inside an open region nested markup changes nothing but the line
(`take_all_open`); outside, it adds the lines of its own elements (`take_all_outside`).
-/

namespace LocalizedSite.Extract

open Html

/-- What makes an element opaque: its name, or a word in its class. -/
def IsOpaque (name : Text) (attributes : List Attribute) : Prop :=
  name ∈ ["script".toList, "style".toList, "footer".toList] ∨
    ∃ value, ("class".toList, some value) ∈ attributes ∧ ∃ word ∈ Text.words value,
      word ∈ ["footer".toList, "region-popup".toList, "region-popup-content".toList]

/-- A region is opened by the opaque elements. -/
theorem opens_region_iff {name : Text} {attributes : List Attribute} :
    opensRegion name attributes = true ↔ IsOpaque name attributes := by
  simp only [opensRegion, IsOpaque, opaqueElements, Bool.or_eq_true, List.contains_iff_mem,
    List.any_eq_true]
  refine or_congr Iff.rfl ⟨?_, ?_⟩
  · rintro ⟨⟨found, _ | value⟩, hmem, hclass⟩
    · exact absurd hclass (by simp [hasOpaqueClass])
    · simp only [hasOpaqueClass, Bool.and_eq_true, beq_iff_eq, List.any_eq_true,
        List.contains_iff_mem] at hclass
      obtain ⟨rfl, word, hword, hlisted⟩ := hclass
      exact ⟨value, hmem, word, hword, hlisted⟩
  · rintro ⟨value, hmem, word, hword, hlisted⟩
    refine ⟨_, hmem, ?_⟩
    simp only [hasOpaqueClass, Bool.and_eq_true, beq_iff_eq, List.any_eq_true, List.contains_iff_mem]
    exact ⟨trivial, word, hword, hlisted⟩

instance (name : Text) (attributes : List Attribute) : Decidable (IsOpaque name attributes) :=
  decidable_of_iff _ opens_region_iff

/-- Markup whose elements are nested: a piece, and the markup behind it. -/
inductive Markup where
  /-- The end of the markup. -/
  | done
  /-- A lexeme that is no tag. -/
  | plain (lexeme : Lexeme) (rest : Markup)
  /-- An element that is its tag alone. -/
  | lone (source name : Text) (attributes : List Attribute) (selfClosing : Bool) (rest : Markup)
  /-- An element with its start tag, its content and its end tag. -/
  | element (opening name : Text) (attributes : List Attribute) (content : Markup) (closing : Text)
      (rest : Markup)

namespace Markup

/-- The lexemes of the markup. -/
def lexemes : Markup → List Lexeme
  | done => []
  | plain lexeme rest => lexeme :: rest.lexemes
  | lone source name attributes selfClosing rest =>
    ⟨source, some (.start name attributes selfClosing)⟩ :: rest.lexemes
  | element opening name attributes content closing rest =>
    ⟨opening, some (.start name attributes false)⟩ ::
      (content.lexemes ++ ⟨closing, some (.finish name)⟩ :: rest.lexemes)

/-- The number of line breaks in the markup. -/
def breaks : Markup → Nat
  | done => 0
  | plain lexeme rest => lexeme.source.count '\n' + rest.breaks
  | lone source _ _ _ rest => source.count '\n' + rest.breaks
  | element opening _ _ content closing rest =>
    opening.count '\n' + content.breaks + closing.count '\n' + rest.breaks

/-- Whether a lexeme is a tag. -/
def isTag (lexeme : Lexeme) : Bool :=
  match lexeme.token with
  | some (.start _ _ _) => true
  | some (.finish _) => true
  | _ => false

/-- Whether the tags are what they stand for: an element without an end tag is void or closed in its
tag, and an element with an end tag is not void. -/
def isNested (voids : List Text) : Markup → Bool
  | done => true
  | plain lexeme rest => !isTag lexeme && rest.isNested voids
  | lone _ name _ selfClosing rest => (selfClosing || voids.contains name) && rest.isNested voids
  | element _ name _ content _ rest =>
    !voids.contains name && content.isNested voids && rest.isNested voids

/-- The opaque elements of markup that begins on this line: the line of the start tag and that of the
end tag, which is the same for an element that is its tag alone. -/
def extents : Markup → Nat → List (Nat × Nat)
  | done, _ => []
  | plain lexeme rest, line => rest.extents (line + lexeme.source.count '\n')
  | lone source name attributes _ rest, line =>
    (if IsOpaque name attributes then [(line, line)] else []) ++
      rest.extents (line + source.count '\n')
  | element opening name attributes content closing rest, line =>
    let inside := line + opening.count '\n'
    let last := inside + content.breaks
    (if IsOpaque name attributes then [(line, last)] else []) ++ content.extents inside ++
      rest.extents (last + closing.count '\n')

/-- The lines of opaque tags that no end tag follows, outside of opaque elements. -/
def strays : Markup → Nat → List Nat
  | done, _ => []
  | plain lexeme rest, line => rest.strays (line + lexeme.source.count '\n')
  | lone source name attributes selfClosing rest, line =>
    (if IsOpaque name attributes ∧ selfClosing = false then [line] else []) ++
      rest.strays (line + source.count '\n')
  | element opening name attributes content closing rest, line =>
    let inside := line + opening.count '\n'
    (if IsOpaque name attributes then [] else content.strays inside) ++
      rest.strays (inside + content.breaks + closing.count '\n')

/-- Whether a line lies in an opaque element of markup that begins on the line `begins`. -/
def Covers (markup : Markup) (begins line : Nat) : Prop :=
  ∃ extent ∈ markup.extents begins, extent.1 ≤ line ∧ line ≤ extent.2

/-- Whether a line lies behind a stray of markup that begins on the line `begins`. -/
def Trails (markup : Markup) (begins line : Nat) : Prop :=
  ∃ stray ∈ markup.strays begins, stray ≤ line

variable {markup : Markup} {begins line : Nat}

instance : Decidable (markup.Covers begins line) :=
  inferInstanceAs (Decidable (∃ extent ∈ markup.extents begins, extent.1 ≤ line ∧ line ≤ extent.2))

section Pieces

variable {rest content : Markup} {lexeme : Lexeme} {source closing name : Text}
  {attributes : List Attribute} {selfClosing : Bool}

theorem covers_lone : (lone source name attributes selfClosing rest).Covers begins line ↔
    (IsOpaque name attributes ∧ line = begins) ∨ rest.Covers (begins + source.count '\n') line := by
  by_cases hopens : IsOpaque name attributes
  · have hown : line = begins ↔ begins ≤ line ∧ line ≤ begins := by omega
    simp [Covers, extents, hopens, or_and_right, exists_or, hown]
  · simp [Covers, extents, hopens]

theorem covers_element : (element source name attributes content closing rest).Covers begins line ↔
    (IsOpaque name attributes ∧ begins ≤ line ∧
        line ≤ begins + source.count '\n' + content.breaks) ∨
      content.Covers (begins + source.count '\n') line ∨
      rest.Covers (begins + source.count '\n' + content.breaks + closing.count '\n') line := by
  by_cases hopens : IsOpaque name attributes
  · simp [Covers, extents, hopens, or_and_right, exists_or]
  · simp [Covers, extents, hopens, or_and_right, exists_or]

theorem trails_lone : (lone source name attributes selfClosing rest).Trails begins line ↔
    (IsOpaque name attributes ∧ selfClosing = false ∧ begins ≤ line) ∨
      rest.Trails (begins + source.count '\n') line := by
  by_cases hstray : IsOpaque name attributes ∧ selfClosing = false
  · simp [Trails, strays, hstray, or_and_right, exists_or]
  · simp [Trails, strays, hstray, ← and_assoc]

theorem trails_element : (element source name attributes content closing rest).Trails begins line ↔
    (¬ IsOpaque name attributes ∧ content.Trails (begins + source.count '\n') line) ∨
      rest.Trails (begins + source.count '\n' + content.breaks + closing.count '\n') line := by
  by_cases hopens : IsOpaque name attributes
  · simp [Trails, strays, hopens]
  · simp [Trails, strays, hopens, or_and_right, exists_or]

end Pieces

/-- The line breaks are those of the lexemes. -/
theorem breaks_eq (markup : Markup) :
    markup.breaks = (markup.lexemes.flatMap Lexeme.source).count '\n' := by
  induction markup with
  | done => rfl
  | plain lexeme rest ih => simp [breaks, lexemes, ih]
  | lone source name attributes selfClosing rest ih => simp [breaks, lexemes, ih]
  | element opening name attributes content closing rest ihcontent ih =>
      simp [breaks, lexemes, ihcontent, ih, Nat.add_assoc]

/-- Opaque elements lie inside of their markup. -/
theorem extent_within {extent : Nat × Nat} (h : extent ∈ markup.extents begins) :
    begins ≤ extent.1 ∧ extent.2 ≤ begins + markup.breaks := by
  induction markup generalizing begins with
  | done => exact absurd h (by simp [extents])
  | plain lexeme rest ih =>
      have hrest := ih h
      simp only [breaks]
      omega
  | lone source name attributes selfClosing rest ih =>
      simp only [breaks]
      obtain h | h := List.mem_append.mp h
      · split at h
        · obtain rfl := List.mem_singleton.mp h
          omega
        · exact absurd h (by simp)
      · have hrest := ih h
        omega
  | element opening name attributes content closing rest ihcontent ih =>
      simp only [extents, List.mem_append] at h
      simp only [breaks]
      obtain (h | h) | h := h
      · split at h
        · obtain rfl := List.mem_singleton.mp h
          dsimp only
          omega
        · exact absurd h (by simp)
      · have hcontent := ihcontent h
        omega
      · have hrest := ih h
        omega

/-- A line in an opaque element is a line of the markup. -/
theorem Covers.within (h : markup.Covers begins line) :
    begins ≤ line ∧ line ≤ begins + markup.breaks := by
  obtain ⟨extent, hmem, hfirst, hlast⟩ := h
  obtain ⟨hbegins, hends⟩ := extent_within hmem
  omega

/-- A line behind a stray is not before the markup. -/
theorem Trails.behind (h : markup.Trails begins line) : begins ≤ line := by
  obtain ⟨stray, hmem, hline⟩ := h
  refine le_trans ?_ hline
  clear hline
  induction markup generalizing begins with
  | done => exact absurd hmem (by simp [strays])
  | plain lexeme rest ih => exact (Nat.le_add_right _ _).trans (ih hmem)
  | lone source name attributes selfClosing rest ih =>
      obtain hmem | hmem := List.mem_append.mp hmem
      · split at hmem
        · exact (List.mem_singleton.mp hmem).ge
        · exact absurd hmem (by simp)
      · exact (Nat.le_add_right _ _).trans (ih hmem)
  | element opening name attributes content closing rest ihcontent ih =>
      simp only [strays, List.mem_append] at hmem
      obtain hmem | hmem := hmem
      · split at hmem
        · exact absurd hmem (by simp)
        · have hcontent := ihcontent hmem
          omega
      · have hrest := ih hmem
        omega

end Markup

namespace RegionScan

/-- Whether a line lies in a region that was found. -/
def Masks (scan : RegionScan) (line : Nat) : Prop :=
  ∃ region ∈ scan.regions, region.covers line = true

/-- No region is open but behind a stray. -/
def IsOutside (voids : List Text) (scan : RegionScan) : Prop :=
  ∀ region, scan.current = some region →
    region.name ∈ voids ∧ 1 ≤ region.depth ∧ region.first ≤ scan.line

/-- The scan behind a lexeme that opens and closes nothing. -/
def past (scan : RegionScan) (breaks : Nat) : RegionScan :=
  { scan with line := scan.line + breaks }

variable {voids : List Text} {markup : Markup} {scan : RegionScan} {begins line : Nat}

/-- With an open region, the lines in regions are those of the closed ones and those from its first. -/
theorem masks_open (first depth : Nat) (name : Text) (closed : List Region) :
    (⟨begins, some ⟨name, first, depth⟩, closed⟩ : RegionScan).Masks line ↔
      (∃ region ∈ closed, region.covers line = true) ∨ first ≤ line := by
  simp [Masks, regions, Region.covers, or_comm]

theorem masks_closed (closed : List Region) :
    (⟨begins, none, closed⟩ : RegionScan).Masks line ↔
      ∃ region ∈ closed, region.covers line = true := by
  simp [Masks, regions]

/-- A lexeme that is no tag is passed. -/
theorem take_plain {lexeme : Lexeme} (h : Markup.isTag lexeme = false) :
    scan.take lexeme = scan.past (lexeme.source.count '\n') := by
  obtain ⟨source, token⟩ := lexeme
  rcases token with _ | _ | _ | _ | _ | _ | _ | _
  all_goals first | rfl | exact absurd h (by simp [Markup.isTag])

section Open

variable {source found name : Text} {attributes : List Attribute} {depth : Nat}

/-- What an element adds to the depth of an open region: one if it has the name of the region. -/
def deeper (found name : Text) : Nat :=
  if found = name then 1 else 0

/-- Inside an open region a start tag is counted if it has the name of the region. -/
theorem take_start_open (begins first : Nat) (closed : List Region) :
    (⟨begins, some ⟨name, first, depth⟩, closed⟩ : RegionScan).take
        ⟨source, some (.start found attributes false)⟩ =
      ⟨begins + source.count '\n', some ⟨name, first, depth + deeper found name⟩, closed⟩ := by
  by_cases hname : found = name <;> simp [take, start, deeper, hname]

/-- The end tag takes back what the start tag added. -/
theorem take_finish_open (hdepth : 1 ≤ depth) (begins first : Nat) (closed : List Region) :
    (⟨begins, some ⟨name, first, depth + deeper found name⟩, closed⟩ : RegionScan).take
        ⟨source, some (.finish found)⟩ =
      ⟨begins + source.count '\n', some ⟨name, first, depth⟩, closed⟩ := by
  by_cases hname : found = name
  · have hinner : ¬ depth + 1 ≤ 1 := by omega
    simp [take, finish, deeper, hname, hinner]
  · simp [take, finish, deeper, hname]

/-- A tag that is closed in itself is counted up and down. -/
theorem take_closed_open (hdepth : 1 ≤ depth) (begins first : Nat) (closed : List Region) :
    (⟨begins, some ⟨name, first, depth⟩, closed⟩ : RegionScan).take
        ⟨source, some (.start found attributes true)⟩ =
      ⟨begins + source.count '\n', some ⟨name, first, depth⟩, closed⟩ := by
  by_cases hname : found = name
  · have hinner : ¬ depth + 1 ≤ 1 := by omega
    simp [take, start, finish, hname, hinner]
  · simp [take, start, finish, hname]

/-- Inside an open region nested markup moves the line, and leaves open its void elements of the name of
the region. -/
theorem take_all_open (hnested : markup.isNested voids = true) (hdepth : 1 ≤ depth) (name : Text)
    (begins first : Nat) (closed : List Region) : ∃ more, (name ∉ voids → more = 0) ∧
      markup.lexemes.foldl take ⟨begins, some ⟨name, first, depth⟩, closed⟩ =
        ⟨begins + markup.breaks, some ⟨name, first, depth + more⟩, closed⟩ := by
  induction markup generalizing begins depth with
  | done => exact ⟨0, fun _ ↦ rfl, rfl⟩
  | plain lexeme rest ih =>
      obtain ⟨hplain, hrest⟩ := by simpa [Markup.isNested] using hnested
      obtain ⟨more, hmore, hscan⟩ := ih hrest hdepth (begins + lexeme.source.count '\n')
      refine ⟨more, hmore, ?_⟩
      rw [Markup.lexemes, List.foldl_cons, take_plain hplain, Markup.breaks, ← Nat.add_assoc]
      exact hscan
  | lone source found attributes selfClosing rest ih =>
      obtain ⟨hlone, hrest⟩ := by simpa [Markup.isNested] using hnested
      rw [Markup.lexemes, List.foldl_cons]
      cases selfClosing with
      | true =>
          obtain ⟨more, hmore, hscan⟩ := ih hrest hdepth (begins + source.count '\n')
          refine ⟨more, hmore, ?_⟩
          rw [take_closed_open hdepth, hscan, Markup.breaks, Nat.add_assoc]
      | false =>
          obtain ⟨more, hmore, hscan⟩ := ih hrest (hdepth.trans (Nat.le_add_right _ (deeper found name)))
            (begins + source.count '\n')
          refine ⟨deeper found name + more, fun hnot ↦ ?_, ?_⟩
          · have hvoid : found ∈ voids := hlone.resolve_left (by simp)
            have hname : found ≠ name := fun heq ↦ hnot (heq ▸ hvoid)
            rw [hmore hnot, deeper, if_neg hname]
          · rw [take_start_open, hscan, Markup.breaks, Nat.add_assoc, Nat.add_assoc]
  | element opening found attributes content closing rest ihcontent ih =>
      obtain ⟨⟨-, hcontent⟩, hrest⟩ := by simpa [Markup.isNested] using hnested
      obtain ⟨more, hmore, hinside⟩ := ihcontent hcontent
        (hdepth.trans (Nat.le_add_right _ (deeper found name))) (begins + opening.count '\n')
      have hlater : 1 ≤ depth + more := hdepth.trans (Nat.le_add_right _ _)
      obtain ⟨others, hothers, hscan⟩ := ih hrest hlater
        (begins + opening.count '\n' + content.breaks + closing.count '\n')
      refine ⟨more + others, fun hnot ↦ by rw [hmore hnot, hothers hnot], ?_⟩
      rw [Markup.lexemes, List.foldl_cons, List.foldl_append, List.foldl_cons, take_start_open, hinside,
        Nat.add_right_comm depth, take_finish_open hlater, hscan]
      simp only [Markup.breaks, Nat.add_assoc]

end Open

/-- A scan outside of regions has gone on by these line breaks, is outside again, and has found these
lines. -/
structure Goes (voids : List Text) (breaks : Nat) (found : Nat → Prop) (scan after : RegionScan) :
    Prop where
  outside : after.IsOutside voids
  line : after.line = scan.line + breaks
  masks : ∀ line, after.Masks line ↔ scan.Masks line ∨ found line

theorem Goes.trans {middle after : RegionScan} {first second : Nat} {found others : Nat → Prop}
    (hfirst : Goes voids first found scan middle) (hsecond : Goes voids second others middle after) :
    Goes voids (first + second) (fun line ↦ found line ∨ others line) scan after where
  outside := hsecond.outside
  line := by rw [hsecond.line, hfirst.line, Nat.add_assoc]
  masks line := by rw [hsecond.masks, hfirst.masks, or_assoc]

theorem Goes.congr {after : RegionScan} {breaks same : Nat} {found others : Nat → Prop}
    (h : Goes voids breaks found scan after) (hbreaks : breaks = same)
    (hfound : ∀ line, found line ↔ others line) : Goes voids same others scan after where
  outside := h.outside
  line := hbreaks ▸ h.line
  masks line := (h.masks line).trans (or_congr_right (hfound line))

theorem IsOutside.goes_past (h : scan.IsOutside voids) (breaks : Nat) :
    Goes voids breaks (fun _ ↦ False) scan (scan.past breaks) where
  outside region hcurrent :=
    let ⟨hname, hdepth, hfirst⟩ := h region hcurrent
    ⟨hname, hdepth, hfirst.trans (Nat.le_add_right _ _)⟩
  line := rfl
  masks _ := by simp [Masks, regions, RegionScan.past]

/-- Behind a stray every line is in its region. -/
theorem goes_behind_stray (hnested : markup.isNested voids = true) (houtside : scan.IsOutside voids)
    {region : OpenRegion} (hcurrent : scan.current = some region) {found : Nat → Prop}
    (hfound : ∀ line, found line → scan.line ≤ line) :
    Goes voids markup.breaks found scan (markup.lexemes.foldl take scan) := by
  obtain ⟨hvoid, hdepth, hfirst⟩ := houtside region hcurrent
  obtain ⟨begins, current, closed⟩ := scan
  obtain rfl : current = some region := hcurrent
  obtain ⟨name, first, depth⟩ := region
  obtain ⟨more, -, hscan⟩ := take_all_open hnested hdepth name begins first closed
  rw [hscan]
  refine ⟨?_, rfl, fun line ↦ ?_⟩
  · rintro region ⟨⟩
    exact ⟨hvoid, hdepth.trans (Nat.le_add_right _ _), hfirst.trans (Nat.le_add_right _ _)⟩
  · rw [masks_open, masks_open]
    refine ⟨.inl, ?_⟩
    rintro (h | h)
    · exact h
    · exact .inr (hfirst.trans (hfound line h))

/-- A start tag that is not opaque is passed outside of regions. -/
theorem take_start_none {source name : Text} {attributes : List Attribute} {selfClosing : Bool}
    (hcurrent : scan.current = none) (h : ¬ IsOpaque name attributes) :
    scan.take ⟨source, some (.start name attributes selfClosing)⟩ = scan.past (source.count '\n') := by
  have hopens : opensRegion name attributes = false := by
    rw [Bool.eq_false_iff, ne_eq, opens_region_iff]
    exact h
  cases selfClosing <;> simp [take, start, finish, past, hcurrent, hopens]

/-- The end tag of an element that is not void is passed outside of regions. -/
theorem take_finish_outside {source name : Text} (houtside : scan.IsOutside voids) (h : name ∉ voids) :
    scan.take ⟨source, some (.finish name)⟩ = scan.past (source.count '\n') := by
  cases hcurrent : scan.current with
  | none => simp [take, finish, past, hcurrent]
  | some region =>
      have hname : name ≠ region.name := fun heq ↦ h (heq ▸ (houtside region hcurrent).1)
      simp [take, finish, past, hcurrent, hname]

section Opaque

variable {source name : Text} {attributes : List Attribute}

/-- The start tag of an opaque element opens a region. -/
theorem take_start_opening (hopens : IsOpaque name attributes) (begins : Nat) (closed : List Region) :
    (⟨begins, none, closed⟩ : RegionScan).take ⟨source, some (.start name attributes false)⟩ =
      ⟨begins + source.count '\n', some ⟨name, begins, 1⟩, closed⟩ := by
  simp [take, start, opens_region_iff.mpr hopens]

/-- An opaque element that is its tag alone is found on its line, or opens a region that stays open if
it is not closed in its tag. -/
theorem goes_lone (source : Text) (hopens : IsOpaque name attributes) {selfClosing : Bool}
    (hlone : selfClosing = true ∨ name ∈ voids) (hcurrent : scan.current = none) :
    Goes voids (source.count '\n')
      (fun line ↦ line = scan.line ∨ (selfClosing = false ∧ scan.line ≤ line)) scan
      (scan.take ⟨source, some (.start name attributes selfClosing)⟩) := by
  obtain ⟨begins, current, closed⟩ := scan
  obtain rfl : current = none := hcurrent
  cases selfClosing with
  | true =>
      have hstep : (⟨begins, none, closed⟩ : RegionScan).take
          ⟨source, some (.start name attributes true)⟩ =
          ⟨begins + source.count '\n', none, ⟨begins, some begins⟩ :: closed⟩ := by
        simp [take, start, finish, opens_region_iff.mpr hopens]
      rw [hstep]
      refine ⟨by simp [IsOutside], rfl, fun line ↦ ?_⟩
      have hown : line = begins ↔ begins ≤ line ∧ line ≤ begins := by omega
      simp [masks_closed, Region.covers, hown, or_comm]
  | false =>
      rw [take_start_opening hopens]
      refine ⟨?_, rfl, fun line ↦ ?_⟩
      · rintro region ⟨⟩
        exact ⟨hlone.resolve_left (by simp), Nat.le_refl _, Nat.le_add_right _ _⟩
      · have hown : begins ≤ line ↔ line = begins ∨ begins ≤ line := by omega
        simp [masks_open, masks_closed, ← hown]

/-- An opaque element is found from the line of its start tag to the line of its end tag. -/
theorem goes_element (source closing : Text) (hopens : IsOpaque name attributes) (hvoid : name ∉ voids)
    (hnested : markup.isNested voids = true) (hcurrent : scan.current = none) :
    Goes voids (source.count '\n' + markup.breaks + closing.count '\n')
      (fun line ↦ scan.line ≤ line ∧ line ≤ scan.line + source.count '\n' + markup.breaks) scan
      ((markup.lexemes.foldl take (scan.take ⟨source, some (.start name attributes false)⟩)).take
        ⟨closing, some (.finish name)⟩) := by
  obtain ⟨begins, current, closed⟩ := scan
  obtain rfl : current = none := hcurrent
  obtain ⟨more, hmore, hscan⟩ :=
    take_all_open hnested (Nat.le_refl 1) name (begins + source.count '\n') begins closed
  obtain rfl := hmore hvoid
  have hfinish (line : Nat) : (⟨line, some ⟨name, begins, 1⟩, closed⟩ : RegionScan).take
      ⟨closing, some (.finish name)⟩ =
      ⟨line + closing.count '\n', none, ⟨begins, some line⟩ :: closed⟩ := by
    simp [take, finish]
  rw [take_start_opening hopens, hscan, hfinish]
  refine ⟨by simp [IsOutside], by simp [Nat.add_assoc], fun line ↦ ?_⟩
  simp [masks_closed, Region.covers, or_comm]

end Opaque

/-- Outside of regions nested markup adds the lines of its own opaque elements, and those behind its
strays. -/
theorem take_all_outside (hnested : markup.isNested voids = true) (houtside : scan.IsOutside voids) :
    Goes voids markup.breaks
      (fun line ↦ markup.Covers scan.line line ∨ markup.Trails scan.line line) scan
      (markup.lexemes.foldl take scan) := by
  -- A stray in the content of an element leaves its region open for the rest, so the induction is over every
  -- scan outside of regions, not only over those without an open one.
  induction markup generalizing scan with
  | done =>
      exact ⟨houtside, rfl, by simp [Markup.Covers, Markup.extents, Markup.Trails, Markup.strays,
        Markup.lexemes]⟩
  | plain lexeme rest ih =>
      obtain ⟨hplain, hrest⟩ := by simpa [Markup.isNested] using hnested
      have hstep := houtside.goes_past (lexeme.source.count '\n')
      rw [Markup.lexemes, List.foldl_cons, take_plain hplain]
      exact (hstep.trans (ih hrest hstep.outside)).congr rfl fun line ↦ by
        rw [false_or]
        rfl
  | lone source name attributes selfClosing rest ih =>
      cases hcurrent : scan.current with
      | some region =>
          exact goes_behind_stray hnested houtside hcurrent fun line h ↦
            h.elim (fun hcovers ↦ hcovers.within.1) Markup.Trails.behind
      | none =>
          obtain ⟨hlone, hrest⟩ := by simpa [Markup.isNested] using hnested
          rw [Markup.lexemes, List.foldl_cons]
          by_cases hopens : IsOpaque name attributes
          · have hstep := goes_lone source hopens hlone hcurrent
            refine (hstep.trans (ih hrest hstep.outside)).congr rfl fun line ↦ ?_
            rw [hstep.line, Markup.covers_lone, Markup.trails_lone]
            simp only [hopens, true_and]
            tauto
          · have hstep := houtside.goes_past (source.count '\n')
            rw [take_start_none hcurrent hopens]
            refine (hstep.trans (ih hrest hstep.outside)).congr rfl fun line ↦ ?_
            rw [hstep.line, Markup.covers_lone, Markup.trails_lone]
            simp only [hopens, false_and, false_or]
  | element opening name attributes content closing rest ihcontent ih =>
      cases hcurrent : scan.current with
      | some region =>
          exact goes_behind_stray hnested houtside hcurrent fun line h ↦
            h.elim (fun hcovers ↦ hcovers.within.1) Markup.Trails.behind
      | none =>
          obtain ⟨⟨hvoid, hcontent⟩, hrest⟩ := by simpa [Markup.isNested] using hnested
          rw [Markup.lexemes, List.foldl_cons, List.foldl_append, List.foldl_cons]
          by_cases hopens : IsOpaque name attributes
          · have hstep := goes_element opening closing hopens hvoid hcontent hcurrent
            refine (hstep.trans (ih hrest hstep.outside)).congr rfl fun line ↦ ?_
            -- The lines of opaque elements in the content are lines of the element.
            have hinside : content.Covers (scan.line + opening.count '\n') line →
                scan.line ≤ line ∧ line ≤ scan.line + opening.count '\n' + content.breaks :=
              fun h ↦ ⟨(Nat.le_add_right _ _).trans h.within.1, h.within.2⟩
            rw [hstep.line, Markup.covers_element, Markup.trails_element]
            simp only [hopens, true_and, not_true, false_and, false_or, ← Nat.add_assoc]
            tauto
          · have hstep := houtside.goes_past (opening.count '\n')
            have hinner := hstep.trans (ihcontent hcontent hstep.outside)
            have hclosed := hinner.trans (hinner.outside.goes_past (closing.count '\n'))
            rw [take_start_none hcurrent hopens, take_finish_outside hinner.outside hvoid]
            refine (hclosed.trans (ih hrest hclosed.outside)).congr rfl fun line ↦ ?_
            rw [hclosed.line, hstep.line, Markup.covers_element, Markup.trails_element]
            simp only [hopens, false_and, not_false_iff, true_and, false_or, or_false, Nat.add_assoc]
            tauto

end RegionScan

/-- The opaque lines of a document are the lines in the regions of its lexemes. -/
theorem exists_opaque_lines {html : Text} {lexemes : List Lexeme} (hlex : lex? .kept html = some lexemes) :
    ∃ lines, opaqueLines? html = some lines ∧ ∀ line, line ∈ lines ↔
      line ≤ html.count '\n' ∧ (lexemes.foldl RegionScan.take ⟨0, none, []⟩).Masks line := by
  have hresult : opaqueLines? html = some ((List.range (html.count '\n' + 1)).filter fun line ↦
      (lexemes.foldl RegionScan.take ⟨0, none, []⟩).regions.any fun region ↦ region.covers line) := by
    rw [opaqueLines?, opaqueRegions?, hlex]
    rfl
  refine ⟨_, hresult, fun line ↦ ?_⟩
  rw [List.mem_filter, List.mem_range, Nat.lt_succ_iff, List.any_eq_true]
  rfl

/-- The opaque elements of a document lie on its lines. -/
theorem Markup.Covers.le_count {html : Text} {markup : Markup} {line : Nat} (h : markup.Covers 0 line)
    (hlex : lex? .kept html = some markup.lexemes) : line ≤ html.count '\n' := by
  have hwithin := h.within
  have hbreaks : markup.breaks ≤ html.count '\n' := by
    rw [Markup.breaks_eq]
    exact (lex_sources hlex).sublist.count_le '\n'
  omega

/-- The opaque lines of a document with nested markup are those of its opaque elements and those behind its
strays. They are those of its opaque elements alone if and only if every line behind a stray is one. -/
theorem opaque_lines_nested {voids : List Text} {html : Text} {markup : Markup}
    (hlex : lex? .kept html = some markup.lexemes) (hnested : markup.isNested voids = true) :
    ∃ lines, opaqueLines? html = some lines ∧
      (∀ line, line ∈ lines ↔
        markup.Covers 0 line ∨ (line ≤ html.count '\n' ∧ markup.Trails 0 line)) ∧
      ((∀ line, line ∈ lines ↔ markup.Covers 0 line) ↔
        ∀ line ≤ html.count '\n', markup.Trails 0 line → markup.Covers 0 line) := by
  obtain ⟨lines, hresult, hmem⟩ := exists_opaque_lines hlex
  have hscan := RegionScan.take_all_outside hnested
    (show (⟨0, none, []⟩ : RegionScan).IsOutside voids by simp [RegionScan.IsOutside])
  have hlines (line : Nat) : line ∈ lines ↔
      markup.Covers 0 line ∨ (line ≤ html.count '\n' ∧ markup.Trails 0 line) := by
    rw [hmem, hscan.masks, RegionScan.masks_closed]
    constructor
    · rintro ⟨hline, ⟨region, hregion, -⟩ | hcovers | htrails⟩
      · exact absurd hregion (by simp)
      · exact .inl hcovers
      · exact .inr ⟨hline, htrails⟩
    · rintro (hcovers | ⟨hline, htrails⟩)
      · exact ⟨hcovers.le_count hlex, .inr (.inl hcovers)⟩
      · exact ⟨hline, .inr (.inr htrails)⟩
  refine ⟨lines, hresult, hlines, fun hexact line hline htrails ↦ ?_, fun hbehind line ↦ ?_⟩
  · exact (hexact line).mp ((hlines line).mpr (.inr ⟨hline, htrails⟩))
  · refine (hlines line).trans ⟨?_, .inl⟩
    rintro (hcovers | ⟨hline, htrails⟩)
    · exact hcovers
    · exact hbehind line hline htrails

/-- A page with a footer in a footer, and an image of an opaque class. -/
def imagePage : Text :=
  ("<footer\n id=\"f\"><footer>Teas</footer><br>\n</footer>\n" ++
    "<img class=\"footer\" src=\"a.png\">\n<p>End</p>").toList

/-- The markup of the page. -/
def imageMarkup : Markup :=
  .element "<footer\n id=\"f\">".toList "footer".toList [("id".toList, some "f".toList)]
    (.element "<footer>".toList "footer".toList [] (.plain (.ofText "Teas".toList) .done)
      "</footer>".toList
      (.lone "<br>".toList "br".toList [] false (.plain (.ofText "\n".toList) .done)))
    "</footer>".toList
    (.plain (.ofText "\n".toList)
      (.lone "<img class=\"footer\" src=\"a.png\">".toList "img".toList
        [("class".toList, some "footer".toList), ("src".toList, some "a.png".toList)] false
        (.plain (.ofText "\n".toList)
          (.element "<p>".toList "p".toList [] (.plain (.ofText "End".toList) .done) "</p>".toList
            .done))))

/-- The image is the only opaque element behind the footer, but the line of the paragraph is opaque. -/
theorem opaque_lines_nested_image :
    lex? .kept imagePage = some imageMarkup.lexemes ∧ imageMarkup.isNested voidElements = true ∧
      ∃ lines, opaqueLines? imagePage = some lines ∧ 2 ∈ lines ∧ 3 ∈ lines ∧ 4 ∈ lines ∧
        imageMarkup.Covers 0 2 ∧ imageMarkup.Covers 0 3 ∧ ¬ imageMarkup.Covers 0 4 := by
  have hlex : lex? .kept imagePage = some imageMarkup.lexemes := by decide +kernel
  have hnested : imageMarkup.isNested voidElements = true := by decide +kernel
  obtain ⟨lines, hresult, hlines, -⟩ := opaque_lines_nested hlex hnested
  have hfooter : imageMarkup.Covers 0 2 := by decide +kernel
  have himage : imageMarkup.Covers 0 3 := by decide +kernel
  have hbehind : 4 ≤ imagePage.count '\n' ∧ imageMarkup.Trails 0 4 :=
    ⟨by decide +kernel, 3, by decide +kernel, by decide⟩
  exact ⟨hlex, hnested, lines, hresult, (hlines 2).mpr (.inl hfooter), (hlines 3).mpr (.inl himage),
    (hlines 4).mpr (.inr hbehind), hfooter, himage, by decide +kernel⟩

end LocalizedSite.Extract
