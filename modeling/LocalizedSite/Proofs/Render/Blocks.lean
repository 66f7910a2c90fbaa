import LocalizedSite.Render.Page

/-!
# The blocks of a rendered page

A page is rendered block by block: `render_cuts_cons` takes off the first block of linked data, and
`render_cuts_found` any of them.
-/

namespace LocalizedSite.Render

/-- The rendering of a text that is cut at its blocks of linked data. -/
def renderCuts (dictionaries : Dictionaries) (cuts : Cuts Slot) : Rendering :=
  let parts := cuts.found.map fun (before, slot) ↦ renderBlock dictionaries before slot
  let (tail, found) := resolveText dictionaries id cuts.tail
  ⟨parts.flatMap Rendering.text ++ tail, parts.flatMap Rendering.resolutions ++ found⟩

/-- A block and what stands before it are rendered first. -/
theorem render_cuts_cons (dictionaries : Dictionaries) (before : Text) (slot : Slot)
    (others : Cuts Slot) :
    renderCuts dictionaries ⟨(before, slot) :: others.found, others.tail⟩ =
      ⟨(resolveText dictionaries id before).1 ++ (slot.opening ++
          ((resolveText dictionaries escapeInScript slot.content).1 ++ (slot.closing ++
            (renderCuts dictionaries others).text))),
        (resolveText dictionaries id before).2 ++
          ((resolveText dictionaries escapeInScript slot.content).2 ++
            (renderCuts dictionaries others).resolutions)⟩ := by
  simp [renderCuts, renderBlock, Slot.withContent]

/-- A block of linked data stands between what is rendered of the text before and after it. -/
theorem render_cuts_found (dictionaries : Dictionaries) {cuts : Cuts Slot} {before : Text}
    {slot : Slot} {earlier later : List (Text × Slot)}
    (h : cuts.found = earlier ++ (before, slot) :: later) :
    (renderCuts dictionaries cuts).text = (renderCuts dictionaries ⟨earlier, before⟩).text ++
      slot.withContent (resolveText dictionaries escapeInScript slot.content).1 ++
        (renderCuts dictionaries ⟨later, cuts.tail⟩).text := by
  simp [renderCuts, renderBlock, h]

end LocalizedSite.Render
