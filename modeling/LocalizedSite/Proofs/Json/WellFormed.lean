import LocalizedSite.Proofs.Entries
import LocalizedSite.Proofs.Json.Number

/-!
# Well-formed values

A value is well-formed if the names within each object differ and its floating-point numbers are of
the binary64 format. What is read is well-formed (`parse_well_formed`).
-/

namespace LocalizedSite

namespace Json

/-- Values whose objects have each name once and whose floating-point numbers are of the format. -/
inductive WellFormed : Json → Prop
  | null : WellFormed .null
  | boolean (value : Bool) : WellFormed (.boolean value)
  | integer (value : Int) : WellFormed (.integer value)
  | float {value : Binary64} (h : value.IsNumber) : WellFormed (.float value)
  | string (value : Text) : WellFormed (.string value)
  | array {items : List Json} (h : ∀ item ∈ items, WellFormed item) : WellFormed (.array items)
  | object {members : Entries Json} (hnames : members.names.Nodup)
      (h : ∀ member ∈ members, WellFormed member.2) : WellFormed (.object members)

/-- The literal names stand for well-formed values. -/
theorem literals_well_formed : ∀ literal ∈ literals, WellFormed literal.2 := by
  intro literal hmem
  simp only [literals, List.mem_cons, List.not_mem_nil, or_false] at hmem
  rcases hmem with rfl | rfl | rfl | rfl | rfl | rfl
  · exact .null
  · exact .boolean true
  · exact .boolean false
  · exact .float trivial
  · exact .float trivial
  · exact .float trivial

/-- A value without parts that is read is well-formed. -/
theorem read_atom_well_formed {text rest : Text} {value : Json}
    (h : readAtom text = .ok (value, rest)) : WellFormed value := by
  rcases read_atom_cases h with ⟨name, hmem, -⟩ | hread
  · exact literals_well_formed _ hmem
  · rcases read_number_shape hread with ⟨number, rfl⟩ | ⟨number, rfl, hnumber⟩
    · exact .integer number
    · exact .float hnumber

/-- The entries of a list of well-formed values form a well-formed object. -/
theorem of_list_well_formed {pairs : List (Text × Json)}
    (h : ∀ pair ∈ pairs, WellFormed pair.2) : WellFormed (.object (Entries.ofList pairs)) :=
  .object (Entries.of_list_nodup pairs) fun _ hmem ↦ h _ (Entries.mem_of_list hmem)

/-- Reading to some depth gives what is well-formed, if all that was read before is. -/
structure ReadsWellFormed (depth : Nat) : Prop where
  value : ∀ {text rest : Text} {value : Json}, readValue depth text = .ok (value, rest) →
    WellFormed value
  items : ∀ {done : List Json} {text rest : Text} {value : Json},
    readItems depth done text = .ok (value, rest) → (∀ item ∈ done, WellFormed item) →
    WellFormed value
  members : ∀ {done : List (Text × Json)} {text rest : Text} {value : Json},
    readMembers depth done text = .ok (value, rest) → (∀ member ∈ done, WellFormed member.2) →
    WellFormed value

section Level

variable {depth : Nat} {text rest : Text} {value : Json}

/-- A value is well-formed if its parts are. -/
theorem ReadsWellFormed.next_value (h : ReadsWellFormed depth)
    (hread : readValue (depth + 1) text = .ok (value, rest)) : WellFormed value := by
  unfold readValue at hread
  split at hread
  · next following =>
      cases hstring : readString ('"' :: following) [] following with
      | error stop =>
          rw [hstring] at hread
          exact absurd hread (by simp [Except.map])
      | ok found =>
          rw [hstring] at hread
          rw [← (Prod.mk.inj (Except.ok.inj hread)).1]
          exact .string found.1
  · split at hread
    · rw [← (Prod.mk.inj (Except.ok.inj hread)).1]
      exact .array (by simp)
    · exact h.items hread (by simp)
  · split at hread
    · rw [← (Prod.mk.inj (Except.ok.inj hread)).1]
      exact .object (by simp [Entries.names]) (by simp)
    · exact h.members hread (by simp)
  · exact read_atom_well_formed hread

/-- An item joins the well-formed ones in front of it. -/
theorem ReadsWellFormed.next_item {done : List Json} (h : ReadsWellFormed depth)
    (hread : readItems (depth + 1) done text = .ok (value, rest))
    (hdone : ∀ item ∈ done, WellFormed item) : WellFormed value := by
  unfold readItems at hread
  split at hread
  · exact absurd hread (by simp)
  · next item following hitem =>
      have hmore : ∀ found ∈ item :: done, WellFormed found :=
        List.forall_mem_cons.mpr ⟨h.value hitem, hdone⟩
      split at hread
      · rw [← (Prod.mk.inj (Except.ok.inj hread)).1]
        exact .array fun found hmem ↦ hmore found (List.mem_reverse.mp hmem)
      · exact h.items hread hmore
      · exact absurd hread (by simp)

/-- A member joins the well-formed ones in front of it. -/
theorem ReadsWellFormed.next_member {done : List (Text × Json)} (h : ReadsWellFormed depth)
    (hread : readMembers (depth + 1) done text = .ok (value, rest))
    (hdone : ∀ member ∈ done, WellFormed member.2) : WellFormed value := by
  unfold readMembers at hread
  split at hread
  · split at hread
    · exact absurd hread (by simp)
    · next name following hname =>
        split at hread
        · split at hread
          · exact absurd hread (by simp)
          · next member behind hmember =>
              have hmore : ∀ found ∈ (name, member) :: done, WellFormed found.2 :=
                List.forall_mem_cons.mpr ⟨h.value hmember, hdone⟩
              split at hread
              · rw [← (Prod.mk.inj (Except.ok.inj hread)).1]
                exact of_list_well_formed fun found hmem ↦ hmore found (List.mem_reverse.mp hmem)
              · exact h.members hread hmore
              · exact absurd hread (by simp)
        · exact absurd hread (by simp)
  · exact absurd hread (by simp)

end Level

/-- Reading gives what is well-formed at every depth. -/
theorem reads_well_formed (depth : Nat) : ReadsWellFormed depth := by
  induction depth with
  | zero =>
      refine ⟨fun h ↦ ?_, fun h _ ↦ ?_, fun h _ ↦ ?_⟩
      · exact absurd h (by simp [readValue])
      · exact absurd h (by simp [readItems])
      · exact absurd h (by simp [readMembers])
  | succ depth ih => exact ⟨ih.next_value, ih.next_item, ih.next_member⟩

/-- A whole text is read as a value with at most a gap behind it. -/
theorem read_of_parse {text : Text} {value : Json} (h : parse text = .ok value) :
    ∃ rest, readValue (text.length + 1) (skipGap text) = .ok (value, rest) ∧ skipGap rest = [] := by
  unfold parse at h
  split at h
  · next found hfound =>
      obtain rfl := Except.ok.inj h
      unfold parseStop at hfound
      split at hfound
      · exact absurd hfound (by simp)
      · split at hfound
        · exact absurd hfound (by simp)
        · next value rest hread =>
            split at hfound
            · next hend =>
                obtain rfl := Except.ok.inj hfound
                exact ⟨rest, hread, hend⟩
            · exact absurd hfound (by simp)
  · exact absurd h (by simp)

/-- What is read as a whole text is well-formed. -/
theorem parse_well_formed {text : Text} {value : Json} (h : parse text = .ok value) :
    WellFormed value := by
  obtain ⟨rest, hread, -⟩ := read_of_parse h
  exact (reads_well_formed _).value hread

end Json

end LocalizedSite
