import LocalizedSite.Extract.StructuredData
import LocalizedSite.Proofs.Entries
import LocalizedSite.Proofs.Json.WellFormed
import LocalizedSite.Proofs.Placeholder

/-!
# Templating a value

A value without a text to translate is templated as it is (`template_value_cases`). From any other value
texts are taken, and putting them back for the references gives the value
(`restore_template_value`).
-/

namespace LocalizedSite

/-- A value is another value or stands within it. -/
inductive Json.Within (part : Json) : Json → Prop
  | self : Within part part
  | item {items : List Json} {item : Json} (hmem : item ∈ items) (h : Within part item) :
      Within part (.array items)
  | member {members : List (Text × Json)} {member : Text × Json} (hmem : member ∈ members)
      (h : Within part member.2) : Within part (.object members)

/-- Only a string has characters. -/
theorem Json.eq_string_of_string {value : Json} {text : Text} (h : value.string? = some text) :
    value = .string text := by
  cases value with
  | string found =>
      obtain rfl := Option.some.inj h
      rfl
  | null | boolean _ | integer _ | float _ | array _ | object _ => exact absurd h (by simp [string?])

namespace Extract

/-- A text field of an object has a text that is worth translating. -/
def HasText (members : Entries Json) (field : Text) : Prop :=
  ∃ text, Entries.get? members field = some (.string text) ∧ isTranslatable members field text = true

/-- An object within a value has a text that is worth translating. -/
def HasTexts (value : Json) : Prop :=
  ∃ members, Json.Within (.object members) value ∧ ∃ field ∈ textFields, HasText members field

/-- Something to translate in an array is in one of its items. -/
theorem has_texts_array {items : List Json} :
    HasTexts (.array items) ↔ ∃ item ∈ items, HasTexts item := by
  constructor
  · rintro ⟨members, hwithin, htext⟩
    cases hwithin with
    | item hmem h => exact ⟨_, hmem, members, h, htext⟩
  · rintro ⟨item, hmem, members, h, htext⟩
    exact ⟨members, .item hmem h, htext⟩

/-- Something to translate in an object is in one of its fields or within one of its members. -/
theorem has_texts_object {members : Entries Json} :
    HasTexts (.object members) ↔
      (∃ field ∈ textFields, HasText members field) ∨ ∃ member ∈ members, HasTexts member.2 := by
  constructor
  · rintro ⟨others, hwithin, htext⟩
    cases hwithin with
    | self => exact .inl htext
    | member hmem h => exact .inr ⟨_, hmem, others, h, htext⟩
  · rintro (htext | ⟨member, hmem, others, h, htext⟩)
    · exact ⟨members, .self, htext⟩
    · exact ⟨others, .member hmem h, htext⟩

/-- A field without a text to translate is passed over. -/
theorem take_fields_of_not {members : Entries Json} {field : Text} (h : ¬ HasText members field)
    (keys : BlockKeys) (fields : List Text) :
    takeFields members keys (field :: fields) = takeFields members keys fields := by
  simp only [takeFields]
  split
  · next text hfound =>
      obtain ⟨value, hget, hstring⟩ := Option.bind_eq_some_iff.mp hfound
      rw [if_neg fun htext ↦ h ⟨text, by rw [hget, Json.eq_string_of_string hstring], htext⟩]
  · rfl

/-- The text of a field is taken under the next key. -/
theorem take_fields_of_has {members : Entries Json} {field text : Text}
    (hget : Entries.get? members field = some (.string text))
    (htext : isTranslatable members field text = true) (keys : BlockKeys) (fields : List Text) :
    takeFields members keys (field :: fields) =
      ((field, (keys.take field text).1) ::
          (takeFields members (keys.take field text).2 fields).1,
        (takeFields members (keys.take field text).2 fields).2) := by
  simp only [takeFields, hget, Option.bind_some, Json.string?, htext, if_true]

/-- No text is taken from the fields of an object, or at least one. -/
theorem take_fields_cases (members : Entries Json) (keys : BlockKeys) (fields : List Text) :
    ((∀ field ∈ fields, ¬ HasText members field) ∧ takeFields members keys fields = ([], keys)) ∨
      (∃ field ∈ fields, HasText members field) ∧
        keys.taken.length < (takeFields members keys fields).2.taken.length := by
  induction fields generalizing keys with
  | nil => exact .inl ⟨by simp, rfl⟩
  | cons field fields ih =>
      by_cases hfield : HasText members field
      · obtain ⟨text, hget, htext⟩ := hfield
        refine .inr ⟨⟨field, List.mem_cons_self .., text, hget, htext⟩, ?_⟩
        rw [take_fields_of_has hget htext]
        have hless : keys.taken.length < (keys.take field text).2.taken.length := Nat.lt_succ_self _
        rcases ih (keys.take field text).2 with ⟨-, hsame⟩ | ⟨-, hmore⟩
        · rw [hsame]
          exact hless
        · exact hless.trans hmore
      · rw [take_fields_of_not hfield]
        rcases ih keys with ⟨hnone, hsame⟩ | ⟨⟨other, hmem, hother⟩, hmore⟩
        · exact .inl ⟨List.forall_mem_cons.mpr ⟨hfield, hnone⟩, hsame⟩
        · exact .inr ⟨⟨other, List.mem_cons_of_mem _ hmem, hother⟩, hmore⟩

/-- Each key that is given out belongs to the text of its field, and the text is taken under it. -/
theorem take_fields_spec {members : Entries Json} {fields : List Text} {keys : BlockKeys} :
    keys.taken <:+ (takeFields members keys fields).2.taken ∧
      ∀ name key, Entries.get? (takeFields members keys fields).1 name = some key →
        ∃ text, Entries.get? members name = some (.string text) ∧
          (key, text) ∈ (takeFields members keys fields).2.taken := by
  induction fields generalizing keys with
  | nil => exact ⟨List.suffix_rfl, by simp [takeFields]⟩
  | cons field fields ih =>
      by_cases hfield : HasText members field
      · obtain ⟨text, hget, htext⟩ := hfield
        rw [take_fields_of_has hget htext]
        obtain ⟨hsuffix, hkeys⟩ := @ih (keys.take field text).2
        refine ⟨(List.suffix_cons _ _).trans hsuffix, fun name key hname ↦ ?_⟩
        rw [Entries.get_cons] at hname
        split at hname
        · next hsame =>
            obtain rfl := Option.some.inj hname
            exact ⟨text, by rw [hsame, hget], hsuffix.subset (List.mem_cons_self ..)⟩
        · exact hkeys name key hname
      · rw [take_fields_of_not hfield]
        exact ih

variable (scope : Text)

/-- An array is templated item by item. -/
theorem template_value_array (keys : BlockKeys) (items : List Json) :
    templateValue scope keys (.array items) =
      (.array (templateItems scope keys items).1, (templateItems scope keys items).2) := rfl

/-- The first item is templated first. -/
theorem template_items_cons (keys : BlockKeys) (item : Json) (items : List Json) :
    templateItems scope keys (item :: items) =
      ((templateValue scope keys item).1 ::
          (templateItems scope (templateValue scope keys item).2 items).1,
        (templateItems scope (templateValue scope keys item).2 items).2) := rfl

/-- The own fields of an object are taken before its members are templated. -/
theorem template_value_object (keys : BlockKeys) (members : List (Text × Json)) :
    templateValue scope keys (.object members) =
      (.object (templateMembers scope (takeFields members keys textFields).1
          (takeFields members keys textFields).2 members).1,
        (templateMembers scope (takeFields members keys textFields).1
          (takeFields members keys textFields).2 members).2) := rfl

/-- A member that is taken becomes a reference. -/
theorem template_members_of_some {taken : Entries Text} {name key : Text}
    (h : Entries.get? taken name = some key) (keys : BlockKeys) (value : Json)
    (members : List (Text × Json)) :
    templateMembers scope taken keys ((name, value) :: members) =
      ((name, .string (Reference.text ⟨scope, key⟩)) :: (templateMembers scope taken keys members).1,
        (templateMembers scope taken keys members).2) := by
  simp only [templateMembers, h]

/-- Any other member is templated. -/
theorem template_members_of_none {taken : Entries Text} {name : Text}
    (h : Entries.get? taken name = none) (keys : BlockKeys) (value : Json)
    (members : List (Text × Json)) :
    templateMembers scope taken keys ((name, value) :: members) =
      ((name, (templateValue scope keys value).1) ::
          (templateMembers scope taken (templateValue scope keys value).2 members).1,
        (templateMembers scope taken (templateValue scope keys value).2 members).2) := by
  simp only [templateMembers, h]

mutual

/-- Templating a value adds to the texts taken before. -/
theorem template_value_suffix (keys : BlockKeys) :
    (value : Json) → keys.taken <:+ (templateValue scope keys value).2.taken
  | .array items => template_items_suffix keys items
  | .object members => by
      rw [template_value_object]
      exact take_fields_spec.1.trans (template_members_suffix _ _ members)
  | .null | .boolean _ | .integer _ | .float _ | .string _ => List.suffix_rfl

theorem template_items_suffix (keys : BlockKeys) :
    (items : List Json) → keys.taken <:+ (templateItems scope keys items).2.taken
  | [] => List.suffix_rfl
  | item :: items => (template_value_suffix keys item).trans (template_items_suffix _ items)

theorem template_members_suffix (taken : Entries Text) (keys : BlockKeys) :
    (members : List (Text × Json)) →
      keys.taken <:+ (templateMembers scope taken keys members).2.taken
  | [] => List.suffix_rfl
  | (name, value) :: members => by
      cases htaken : Entries.get? taken name with
      | some key =>
          rw [template_members_of_some scope htaken]
          exact template_members_suffix taken keys members
      | none =>
          rw [template_members_of_none scope htaken]
          exact (template_value_suffix keys value).trans (template_members_suffix taken _ members)

end

mutual

/-- Templating keeps a value without a text to translate, and takes a text from any other value. -/
theorem template_value_cases (keys : BlockKeys) : (value : Json) →
    (¬ HasTexts value ∧ templateValue scope keys value = (value, keys)) ∨
      HasTexts value ∧ keys.taken.length < (templateValue scope keys value).2.taken.length
  | .array items => by
      rw [has_texts_array, template_value_array]
      rcases template_items_cases keys items with ⟨hnone, hsame⟩ | hsome
      · exact .inl ⟨hnone, by rw [hsame]⟩
      · exact .inr hsome
  | .object members => by
      rw [has_texts_object, template_value_object]
      rcases take_fields_cases members keys textFields with ⟨hnone, hsame⟩ | ⟨hsome, hless⟩
      · rw [hsame]
        rcases template_members_cases keys members with ⟨hothers, hkept⟩ | ⟨hother, hmore⟩
        · refine .inl ⟨?_, by rw [hkept]⟩
          rintro (⟨field, hmem, hfield⟩ | hmember)
          · exact hnone field hmem hfield
          · exact hothers hmember
        · exact .inr ⟨.inr hother, hmore⟩
      · exact .inr ⟨.inl hsome,
          hless.trans_le (template_members_suffix scope _ _ members).length_le⟩
  | .null | .boolean _ | .integer _ | .float _ | .string _ => by
      refine .inl ⟨?_, rfl⟩
      rintro ⟨members, hwithin, -⟩
      cases hwithin

theorem template_items_cases (keys : BlockKeys) : (items : List Json) →
    ((¬ ∃ item ∈ items, HasTexts item) ∧ templateItems scope keys items = (items, keys)) ∨
      (∃ item ∈ items, HasTexts item) ∧
        keys.taken.length < (templateItems scope keys items).2.taken.length
  | [] => .inl ⟨by simp, rfl⟩
  | item :: items => by
      rw [template_items_cons]
      simp only [List.mem_cons, exists_eq_or_imp]
      rcases template_value_cases keys item with ⟨hitem, hkept⟩ | ⟨hitem, hless⟩
      · rw [hkept]
        rcases template_items_cases keys items with ⟨hnone, hsame⟩ | ⟨hsome, hmore⟩
        · exact .inl ⟨not_or.mpr ⟨hitem, hnone⟩, by rw [hsame]⟩
        · exact .inr ⟨.inr hsome, hmore⟩
      · exact .inr ⟨.inl hitem, hless.trans_le (template_items_suffix scope _ items).length_le⟩

theorem template_members_cases (keys : BlockKeys) : (members : List (Text × Json)) →
    ((¬ ∃ member ∈ members, HasTexts member.2) ∧
        templateMembers scope [] keys members = (members, keys)) ∨
      (∃ member ∈ members, HasTexts member.2) ∧
        keys.taken.length < (templateMembers scope [] keys members).2.taken.length
  | [] => .inl ⟨by simp, rfl⟩
  | (name, value) :: members => by
      rw [template_members_of_none scope (Entries.get_nil name)]
      simp only [List.mem_cons, exists_eq_or_imp]
      rcases template_value_cases keys value with ⟨hvalue, hkept⟩ | ⟨hvalue, hless⟩
      · rw [hkept]
        rcases template_members_cases keys members with ⟨hnone, hsame⟩ | ⟨hsome, hmore⟩
        · exact .inl ⟨not_or.mpr ⟨hvalue, hnone⟩, by rw [hsame]⟩
        · exact .inr ⟨.inr hsome, hmore⟩
      · exact .inr ⟨.inl hvalue,
          hless.trans_le (template_members_suffix scope [] _ members).length_le⟩

end

/-- The text that was taken under the key of a reference, or the text itself if it is no such
reference. -/
def restoreText (texts : Entries Text) (text : Text) : Text :=
  match texts.find? fun entry ↦ Reference.text ⟨scope, entry.1⟩ = text with
  | some entry => entry.2
  | none => text

mutual

/-- The value with its texts in place of the references. -/
def restoreValue (texts : Entries Text) : Json → Json
  | .string text => .string (restoreText scope texts text)
  | .array items => .array (restoreItems texts items)
  | .object members => .object (restoreMembers texts members)
  | value => value

/-- The items of an array with their texts in place of the references. -/
def restoreItems (texts : Entries Text) : List Json → List Json
  | [] => []
  | item :: items => restoreValue texts item :: restoreItems texts items

/-- The members of an object with their texts in place of the references. -/
def restoreMembers (texts : Entries Text) : List (Text × Json) → List (Text × Json)
  | [] => []
  | (name, value) :: members => (name, restoreValue texts value) :: restoreMembers texts members

end

/-- References of one scope are told apart by their keys. -/
theorem reference_text_injective {scope key other : Text}
    (h : Reference.text ⟨scope, key⟩ = Reference.text ⟨scope, other⟩) : key = other := by
  simpa [Reference.text] using h

/-- A text that was taken is put back for its reference. -/
theorem restore_text_of_mem {texts : Entries Text} (hnames : texts.names.Nodup) {key text : Text}
    (hmem : (key, text) ∈ texts) : restoreText scope texts (Reference.text ⟨scope, key⟩) = text := by
  unfold restoreText
  cases hfind : texts.find? fun entry ↦
      Reference.text ⟨scope, entry.1⟩ = Reference.text ⟨scope, key⟩ with
  | none => exact absurd (List.find?_eq_none.mp hfind _ hmem) (by simp)
  | some entry =>
      obtain ⟨other, found⟩ := entry
      have hkey : other = key :=
        reference_text_injective (by simpa using List.find?_some hfind)
      have hfound := Entries.get_of_mem hnames (List.mem_of_find?_eq_some hfind)
      rw [hkey, Entries.get_of_mem hnames hmem] at hfound
      exact (Option.some.inj hfound).symm

/-- A text without opening braces stays. -/
theorem restore_text_of_not_infix {texts : Entries Text} {text : Text} (h : ¬ openBraces <:+: text) :
    restoreText scope texts text = text := by
  unfold restoreText
  cases hfind : texts.find? fun entry ↦ Reference.text ⟨scope, entry.1⟩ = text with
  | none => rfl
  | some entry =>
      have htext : Reference.text ⟨scope, entry.1⟩ = text := by simpa using List.find?_some hfind
      have hbraces := (Reference.begins_with_braces ⟨scope, entry.1⟩ []).isInfix
      rw [List.append_nil, htext] at hbraces
      exact absurd hbraces h

variable {scope} {texts : Entries Text}

/-- Putting the texts back undoes the templating of a value, from whatever keys. -/
def RestoresValue (scope : Text) (texts : Entries Text) (value : Json) : Prop :=
  ∀ keys, (∀ entry ∈ (templateValue scope keys value).2.taken,
      restoreText scope texts (Reference.text ⟨scope, entry.1⟩) = entry.2) →
    restoreValue scope texts (templateValue scope keys value).1 = value

/-- Putting the texts back undoes the templating of items. -/
theorem restore_template_items {items : List Json} (h : ∀ item ∈ items, RestoresValue scope texts item)
    (keys : BlockKeys) (htaken : ∀ entry ∈ (templateItems scope keys items).2.taken,
      restoreText scope texts (Reference.text ⟨scope, entry.1⟩) = entry.2) :
    restoreItems scope texts (templateItems scope keys items).1 = items := by
  induction items generalizing keys with
  | nil => rfl
  | cons item items ih =>
      rw [template_items_cons] at htaken ⊢
      have hsuffix := template_items_suffix scope (templateValue scope keys item).2 items
      have hitem := h item (List.mem_cons_self ..) keys fun entry hmem ↦
        htaken entry (hsuffix.subset hmem)
      rw [restoreItems, hitem, ih (fun other hmem ↦ h other (List.mem_cons_of_mem _ hmem)) _ htaken]

/-- Putting the texts back undoes the templating of members, if those that are taken are strings. -/
theorem restore_template_members {members : List (Text × Json)}
    (h : ∀ member ∈ members, RestoresValue scope texts member.2) {taken : Entries Text}
    (hstring : ∀ member ∈ members, ∀ key, Entries.get? taken member.1 = some key → ∃ text,
      member.2 = .string text ∧ restoreText scope texts (Reference.text ⟨scope, key⟩) = text)
    (keys : BlockKeys) (htaken : ∀ entry ∈ (templateMembers scope taken keys members).2.taken,
      restoreText scope texts (Reference.text ⟨scope, entry.1⟩) = entry.2) :
    restoreMembers scope texts (templateMembers scope taken keys members).1 = members := by
  induction members generalizing keys with
  | nil => rfl
  | cons member members ih =>
      obtain ⟨name, value⟩ := member
      have ih := ih (fun other hmem ↦ h other (List.mem_cons_of_mem _ hmem))
        fun other hmem ↦ hstring other (List.mem_cons_of_mem _ hmem)
      cases hname : Entries.get? taken name with
      | some key =>
          rw [template_members_of_some scope hname] at htaken ⊢
          obtain ⟨text, hvalue, htext⟩ := hstring (name, value) (List.mem_cons_self ..) key hname
          rw [restoreMembers, restoreValue, htext, ih keys htaken, ← hvalue]
      | none =>
          rw [template_members_of_none scope hname] at htaken ⊢
          have hsuffix := template_members_suffix scope taken (templateValue scope keys value).2 members
          have hvalue := h (name, value) (List.mem_cons_self ..) keys fun entry hmem ↦
            htaken entry (hsuffix.subset hmem)
          rw [restoreMembers, hvalue, ih _ htaken]

/-- Putting the texts back undoes the templating of a value whose own strings are no references. -/
theorem restore_template_value {value : Json} (hvalue : Json.WellFormed value)
    (hstrings : ∀ text, Json.Within (.string text) value → restoreText scope texts text = text) :
    RestoresValue scope texts value := by
  induction hvalue with
  | null | boolean _ | integer _ | float _ => exact fun keys _ ↦ rfl
  | string text =>
      intro keys _
      show Json.string (restoreText scope texts text) = _
      rw [hstrings text .self]
  | array _ ih =>
      intro keys htaken
      rw [template_value_array] at htaken ⊢
      rw [restoreValue, restore_template_items (fun item hmem ↦ ih item hmem fun text hwithin ↦
        hstrings text (.item hmem hwithin)) keys htaken]
  | @object members hnames _ ih =>
      intro keys htaken
      rw [template_value_object] at htaken ⊢
      have hsuffix := template_members_suffix scope (takeFields members keys textFields).1
        (takeFields members keys textFields).2 members
      rw [restoreValue, restore_template_members
        (fun member hmem ↦ ih member hmem fun text hwithin ↦ hstrings text (.member hmem hwithin))
        ?_ _ htaken]
      rintro ⟨name, value⟩ hmem key hkey
      obtain ⟨text, hget, hentry⟩ := take_fields_spec.2 name key hkey
      have hvalue := Entries.get_of_mem hnames hmem
      rw [hget] at hvalue
      exact ⟨text, (Option.some.inj hvalue).symm, htaken _ (hsuffix.subset hentry)⟩

variable (scope)

/-- Templating keeps the names of the members. -/
theorem names_template_members (taken : Entries Text) (keys : BlockKeys)
    (members : List (Text × Json)) :
    Entries.names (templateMembers scope taken keys members).1 = Entries.names members := by
  induction members generalizing keys with
  | nil => rfl
  | cons member members ih =>
      obtain ⟨name, value⟩ := member
      cases hname : Entries.get? taken name with
      | some key =>
          rw [template_members_of_some scope hname]
          exact congrArg (name :: ·) (ih _)
      | none =>
          rw [template_members_of_none scope hname]
          exact congrArg (name :: ·) (ih _)

/-- Items that are templated are well-formed if each of them is. -/
theorem template_items_well_formed {items : List Json}
    (h : ∀ item ∈ items, ∀ keys, Json.WellFormed (templateValue scope keys item).1)
    (keys : BlockKeys) : ∀ item ∈ (templateItems scope keys items).1, Json.WellFormed item := by
  induction items generalizing keys with
  | nil => exact fun item hmem ↦ absurd hmem List.not_mem_nil
  | cons item items ih =>
      rw [template_items_cons]
      exact List.forall_mem_cons.mpr ⟨h item (List.mem_cons_self ..) keys,
        ih (fun other hmem ↦ h other (List.mem_cons_of_mem _ hmem)) _⟩

/-- Members that are templated are well-formed if each of them is. -/
theorem template_members_well_formed {members : List (Text × Json)}
    (h : ∀ member ∈ members, ∀ keys, Json.WellFormed (templateValue scope keys member.2).1)
    (taken : Entries Text) (keys : BlockKeys) :
    ∀ member ∈ (templateMembers scope taken keys members).1, Json.WellFormed member.2 := by
  induction members generalizing keys with
  | nil => exact fun member hmem ↦ absurd hmem List.not_mem_nil
  | cons member members ih =>
      obtain ⟨name, value⟩ := member
      have ih := ih fun other hmem ↦ h other (List.mem_cons_of_mem _ hmem)
      cases hname : Entries.get? taken name with
      | some key =>
          rw [template_members_of_some scope hname]
          exact List.forall_mem_cons.mpr ⟨.string _, ih _⟩
      | none =>
          rw [template_members_of_none scope hname]
          exact List.forall_mem_cons.mpr ⟨h (name, value) (List.mem_cons_self ..) keys, ih _⟩

/-- A templated value is well-formed if the value is. -/
theorem template_value_well_formed {value : Json} (h : Json.WellFormed value) (keys : BlockKeys) :
    Json.WellFormed (templateValue scope keys value).1 := by
  induction h generalizing keys with
  | null => exact .null
  | boolean value => exact .boolean value
  | integer value => exact .integer value
  | float hnumber => exact .float hnumber
  | string text => exact .string text
  | array _ ih => exact .array (template_items_well_formed scope ih keys)
  | object hnames _ ih =>
      rw [template_value_object]
      refine .object ?_ (template_members_well_formed scope ih _ _)
      rw [names_template_members]
      exact hnames

/-- A member of another name is not what is found. -/
theorem get_template_members_of_ne {taken : Entries Text} {name found : Text} (h : name ≠ found)
    (keys : BlockKeys) (value : Json) (members : List (Text × Json)) :
    ∃ next, Entries.get? (templateMembers scope taken keys ((found, value) :: members)).1 name =
      Entries.get? (templateMembers scope taken next members).1 name := by
  cases hother : Entries.get? taken found with
  | some _ =>
      rw [template_members_of_some scope hother]
      exact ⟨keys, by rw [Entries.get_cons, if_neg h]⟩
  | none =>
      rw [template_members_of_none scope hother]
      exact ⟨_, by rw [Entries.get_cons, if_neg h]⟩

/-- The member that is found under a name that is taken is its reference. -/
theorem get_template_members_of_some {taken : Entries Text} {name key : Text}
    (h : Entries.get? taken name = some key) (keys : BlockKeys) (members : List (Text × Json)) :
    Entries.get? (templateMembers scope taken keys members).1 name =
      (Entries.get? members name).map fun _ ↦ .string (Reference.text ⟨scope, key⟩) := by
  induction members generalizing keys with
  | nil => rfl
  | cons member members ih =>
      obtain ⟨found, value⟩ := member
      by_cases hfound : name = found
      · rw [template_members_of_some scope (hfound ▸ h), Entries.get_cons, Entries.get_cons, if_pos hfound,
          if_pos hfound]
        rfl
      · obtain ⟨next, hnext⟩ := get_template_members_of_ne scope hfound keys value members
        rw [hnext, Entries.get_cons, if_neg hfound, ih]

/-- The member that is found under any other name is the templated one. -/
theorem get_template_members_of_none {taken : Entries Text} {name : Text}
    (h : Entries.get? taken name = none) (keys : BlockKeys) (members : List (Text × Json)) :
    ∃ others, Entries.get? (templateMembers scope taken keys members).1 name =
      (Entries.get? members name).map fun value ↦ (templateValue scope others value).1 := by
  induction members generalizing keys with
  | nil => exact ⟨keys, rfl⟩
  | cons member members ih =>
      obtain ⟨found, value⟩ := member
      by_cases hfound : name = found
      · refine ⟨keys, ?_⟩
        rw [template_members_of_none scope (hfound ▸ h), Entries.get_cons, Entries.get_cons, if_pos hfound,
          if_pos hfound]
        rfl
      · obtain ⟨next, hnext⟩ := get_template_members_of_ne scope hfound keys value members
        rw [hnext, Entries.get_cons, if_neg hfound]
        exact ih next

/-- Templating keeps strings, and makes none. -/
@[simp]
theorem string_template_value (keys : BlockKeys) (value : Json) :
    (templateValue scope keys value).1.string? = value.string? := by
  cases value <;> rfl

/-- Templating keeps the strings among the items of an array. -/
theorem strings_template_items (keys : BlockKeys) (items : List Json) :
    (templateItems scope keys items).1.filterMap Json.string? = items.filterMap Json.string? := by
  induction items generalizing keys with
  | nil => rfl
  | cons item items ih => simp only [template_items_cons, List.filterMap_cons, string_template_value, ih]

/-- Templating keeps whether a value counts as empty. -/
theorem is_empty_template_value (keys : BlockKeys) (value : Json) :
    (templateValue scope keys value).1.isEmptyValue = value.isEmptyValue := by
  cases value with
  | array items => cases items <;> rfl
  | object members =>
      have hnames := congrArg List.isEmpty (names_template_members scope
        (takeFields members keys textFields).1 (takeFields members keys textFields).2 members)
      rw [template_value_object]
      simpa [Entries.names, Json.isEmptyValue] using hnames
  | null | boolean _ | integer _ | float _ | string _ => rfl

/-- A field that is not among those to be taken is not taken. -/
theorem get_take_fields_of_not_mem {members : Entries Json} {fields : List Text} {name : Text}
    (h : name ∉ fields) (keys : BlockKeys) :
    Entries.get? (takeFields members keys fields).1 name = none := by
  induction fields generalizing keys with
  | nil => rfl
  | cons field fields ih =>
      obtain ⟨hfield, hothers⟩ := List.ne_and_not_mem_of_not_mem_cons h
      by_cases htext : HasText members field
      · obtain ⟨text, hget, htext⟩ := htext
        rw [take_fields_of_has hget htext, Entries.get_cons, if_neg hfield]
        exact ih hothers _
      · rw [take_fields_of_not htext]
        exact ih hothers keys

/-- A field with a text to translate is taken. -/
theorem not_has_text_of_get {members : Entries Json} {fields : List Text} {field : Text}
    (hmem : field ∈ fields) {keys : BlockKeys}
    (h : Entries.get? (takeFields members keys fields).1 field = none) : ¬ HasText members field := by
  induction fields generalizing keys with
  | nil => exact absurd hmem List.not_mem_nil
  | cons other fields ih =>
      by_cases htext : HasText members other
      · obtain ⟨text, hget, htext⟩ := htext
        rw [take_fields_of_has hget htext, Entries.get_cons] at h
        split at h
        · exact absurd h (by simp)
        · next hne => exact ih ((List.mem_cons.mp hmem).resolve_left hne) h
      · rw [take_fields_of_not htext] at h
        rcases List.mem_cons.mp hmem with rfl | hmem
        · exact htext
        · exact ih hmem h

section Settled

variable {scope} {taken : Entries Text} {keys : BlockKeys} {members : List (Text × Json)}

/-- The types of an object are no texts to translate, so they stay. -/
theorem entity_types_template_members (h : Entries.get? taken "@type".toList = none) :
    entityTypes (templateMembers scope taken keys members).1 = entityTypes members := by
  obtain ⟨others, hget⟩ := get_template_members_of_none scope h keys members
  unfold entityTypes
  rw [hget]
  cases Entries.get? members "@type".toList with
  | none => rfl
  | some value =>
      cases value with
      | array items => exact strings_template_items scope others items
      | null | boolean _ | integer _ | float _ | string _ | object _ => rfl

/-- Whether the name of an object stays is seen from its types and its item, and both stay what they are. -/
theorem keeps_name_template_members (htype : Entries.get? taken "@type".toList = none)
    (hitem : Entries.get? taken "item".toList = none) :
    keepsName (templateMembers scope taken keys members).1 = keepsName members := by
  obtain ⟨others, hget⟩ := get_template_members_of_none scope hitem keys members
  unfold keepsName
  rw [entity_types_template_members htype, hget, Option.any_map]
  simp only [is_empty_template_value]

/-- A reference is not worth translating. -/
theorem not_translatable_reference (reference : Reference) (field : Text) :
    isTranslatable members field reference.text = false := by
  have hstart : Placeholder.isAtStart reference.text = true := rfl
  simp [isTranslatable, hstart]

/-- The own fields of a templated object have no text to translate: each is a reference now or had none. -/
theorem template_fields_settled {field : Text} (hfield : field ∈ textFields) (start : BlockKeys) :
    ¬ HasText (templateMembers scope (takeFields members start textFields).1 keys members).1 field := by
  have htype : Entries.get? (takeFields members start textFields).1 "@type".toList = none :=
    get_take_fields_of_not_mem (by decide) start
  have hitem : Entries.get? (takeFields members start textFields).1 "item".toList = none :=
    get_take_fields_of_not_mem (by decide) start
  rintro ⟨text, hget, htext⟩
  cases hkey : Entries.get? (takeFields members start textFields).1 field with
  | some key =>
      rw [get_template_members_of_some scope hkey] at hget
      obtain ⟨_, -, hreference⟩ := Option.map_eq_some_iff.mp hget
      obtain rfl := Json.string.inj hreference
      rw [not_translatable_reference] at htext
      exact absurd htext (by simp)
  | none =>
      obtain ⟨others, hothers⟩ := get_template_members_of_none scope hkey keys members
      rw [hothers] at hget
      obtain ⟨value, hvalue, hstring⟩ := Option.map_eq_some_iff.mp hget
      have hsame := string_template_value scope others value
      rw [hstring] at hsame
      obtain rfl := Json.eq_string_of_string hsame.symm
      refine not_has_text_of_get hfield hkey ⟨text, hvalue, ?_⟩
      rwa [isTranslatable, keeps_name_template_members htype hitem] at htext

end Settled

mutual

/-- A templated value has no text to translate. -/
theorem template_value_settled (keys : BlockKeys) :
    (value : Json) → ¬ HasTexts (templateValue scope keys value).1
  | .array items => by
      rw [template_value_array, has_texts_array]
      exact template_items_settled keys items
  | .object members => by
      rw [template_value_object, has_texts_object, not_or]
      refine ⟨?_, template_members_settled _ _ members⟩
      rintro ⟨field, hfield, htext⟩
      exact template_fields_settled hfield keys htext
  | .null | .boolean _ | .integer _ | .float _ | .string _ => by
      rintro ⟨members, hwithin, -⟩
      cases hwithin

theorem template_items_settled (keys : BlockKeys) :
    (items : List Json) → ¬ ∃ item ∈ (templateItems scope keys items).1, HasTexts item
  | [] => by simp [templateItems]
  | item :: items => by
      rw [template_items_cons]
      simp only [List.mem_cons, exists_eq_or_imp]
      exact not_or.mpr ⟨template_value_settled keys item, template_items_settled _ items⟩

theorem template_members_settled (taken : Entries Text) (keys : BlockKeys) :
    (members : List (Text × Json)) →
      ¬ ∃ member ∈ (templateMembers scope taken keys members).1, HasTexts member.2
  | [] => by simp [templateMembers]
  | (name, value) :: members => by
      cases hname : Entries.get? taken name with
      | some key =>
          rw [template_members_of_some scope hname]
          simp only [List.mem_cons, exists_eq_or_imp]
          refine not_or.mpr ⟨?_, template_members_settled taken keys members⟩
          rintro ⟨others, hwithin, -⟩
          cases hwithin
      | none =>
          rw [template_members_of_none scope hname]
          simp only [List.mem_cons, exists_eq_or_imp]
          exact not_or.mpr ⟨template_value_settled keys value, template_members_settled taken _ members⟩

end

end Extract

end LocalizedSite
