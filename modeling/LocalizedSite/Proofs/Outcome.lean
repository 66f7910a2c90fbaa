import Mathlib.Data.List.Basic

/-!
# Results and faults

An operation gives a result or a fault. Operations in a row give a result if each of them does: two of them
(`bind_eq_ok`), one for each of several values (`mem_map_m_iff`, `exists_map_m_iff`), or several on one state,
which has in the end whatever each of them keeps (`foldlM_keeps`).
-/

namespace LocalizedSite

variable {α β γ ε : Type}

/-- Two operations in a row succeed if the second does with what the first gives. -/
theorem bind_eq_ok {first : Except ε α} {second : α → Except ε β} {result : β} :
    (first >>= second) = .ok result ↔ ∃ found, first = .ok found ∧ second found = .ok result := by
  cases first with
  | error error => simp [bind, Except.bind]
  | ok found => simp [bind, Except.bind]

/-- A value that is no fault is there. -/
theorem to_option_iff {value : Except ε α} {result : α} :
    value.toOption = some result ↔ value = .ok result := by
  cases value <;> simp [Except.toOption]

section Changes

variable {value : Except ε α} {change : α → β}

/-- What a result is turned into is there if the result is. -/
theorem map_eq_ok {result : β} :
    value.map change = .ok result ↔ ∃ found, value = .ok found ∧ change found = result := by
  cases value <;> simp [Except.map]

end Changes

section Sequences

variable {act : α → Except ε β}

/-- Taking values one after another goes from the first one to the others. -/
theorem map_m_cons_eq_ok {value : α} {values : List α} {results : List β} :
    (value :: values).mapM act = .ok results ↔ ∃ result others,
      act value = .ok result ∧ values.mapM act = .ok others ∧ results = result :: others := by
  rw [List.mapM_cons, bind_eq_ok]
  constructor
  · rintro ⟨result, hvalue, h⟩
    obtain ⟨others, hothers, h⟩ := bind_eq_ok.mp h
    exact ⟨result, others, hvalue, hothers, (Except.ok.inj h).symm⟩
  · rintro ⟨result, others, hvalue, hothers, rfl⟩
    exact ⟨result, hvalue, bind_eq_ok.mpr ⟨others, hothers, rfl⟩⟩

/-- The results are those of the values. -/
theorem mem_map_m_iff {values : List α} {results : List β} (h : values.mapM act = .ok results)
    {result : β} : result ∈ results ↔ ∃ value ∈ values, act value = .ok result := by
  induction values generalizing results with
  | nil =>
      obtain rfl : results = [] := (Except.ok.inj h).symm
      simp
  | cons value values ih =>
      obtain ⟨first, others, hvalue, hothers, rfl⟩ := map_m_cons_eq_ok.mp h
      rw [List.mem_cons, ih hothers, List.exists_mem_cons_iff, hvalue, Except.ok.injEq, eq_comm]

/-- Values can be taken one after another if each of them can. -/
theorem exists_map_m_iff {values : List α} :
    (∃ results, values.mapM act = .ok results) ↔ ∀ value ∈ values, ∃ result, act value = .ok result := by
  induction values with
  | nil => exact iff_of_true ⟨[], rfl⟩ (by simp)
  | cons value values ih =>
      rw [List.forall_mem_cons, ← ih]
      constructor
      · rintro ⟨results, h⟩
        obtain ⟨result, others, hvalue, hothers, rfl⟩ := map_m_cons_eq_ok.mp h
        exact ⟨⟨result, hvalue⟩, others, hothers⟩
      · rintro ⟨⟨result, hvalue⟩, others, hothers⟩
        exact ⟨_, map_m_cons_eq_ok.mpr ⟨result, others, hvalue, hothers, rfl⟩⟩

/-- What each of several operations keeps is kept by all of them in a row. -/
theorem foldlM_keeps {step : β → α → Except ε β} (holds : β → Prop) {values : List α}
    (hstep : ∀ value ∈ values, ∀ {state next}, step state value = .ok next → holds state → holds next)
    {start final : β} (h : values.foldlM step start = .ok final) (hstart : holds start) : holds final := by
  induction values generalizing start with
  | nil =>
      obtain rfl := Except.ok.inj h
      exact hstart
  | cons value values ih =>
      rw [List.foldlM_cons] at h
      obtain ⟨next, hfirst, hrest⟩ := bind_eq_ok.mp h
      exact ih (fun other hother ↦ hstep other (List.mem_cons_of_mem _ hother)) hrest
        (hstep value (List.mem_cons_self ..) hfirst hstart)

end Sequences

end LocalizedSite
