import LocalizedSite.Config.Read
import LocalizedSite.Proofs.Entries
import LocalizedSite.Proofs.Files.Closed
import Mathlib.Data.List.Nodup

/-!
# Which faults a configuration has

The parts of a configuration are checked in a fixed order, and each part is sound or not by what the value of
the file says (`Part.Sound`). Reading gives a configuration exactly if every part is sound, and otherwise a
fault of the first part that is not (`of_groups_checks`). Whether the fault is one that a configuration is
meant to report depends on that part: three groups of settings and the length of a reply are used without a
check (`load_documented_iff`).
-/

namespace LocalizedSite

open Yaml FileTree

namespace Config

section Soundness

/-- A part of a configuration that is checked by itself. -/
inductive Part where
  /-- The locales with the settings that each must have. -/
  | locales
  /-- The group of the settings of the site. -/
  | site
  /-- The source locale. -/
  | source
  /-- The pages with the settings that each must have. -/
  | pages
  /-- The address of the site. -/
  | address
  /-- The group of the settings of extraction. -/
  | extraction
  /-- The labels of extraction. -/
  | labels
  /-- The group of the settings of the translation service. -/
  | translation
  /-- The greatest length of a reply. -/
  | replyLength
deriving DecidableEq, Repr

/-- The parts in the order in which they are checked. -/
def Part.inOrder : List Part :=
  [.locales, .site, .source, .pages, .address, .extraction, .labels, .translation, .replyLength]

/-- Whether a part that is not sound is reported as a wrong setting. -/
def Part.isGuarded : Part → Bool
  | .locales | .source | .pages | .address | .labels => true
  | .site | .extraction | .translation | .replyLength => false

/-- The settings of a value, none if it is no mapping. -/
def settingsOf (value : Value) : Group :=
  value.entries?.getD []

/-- The value may stand for a group of settings: it is a mapping, or it counts as absent. -/
def IsGroup (value : Value) : Prop :=
  value.isEmptyValue = true ∨ value.entries?.isSome = true

/-- The value has the settings that a locale must have. -/
def IsLocale (value : Value) : Prop :=
  value.entries?.isSome = true ∧
    ∀ name ∈ requiredLocaleSettings, (Value.field (settingsOf value) name).isEmptyValue = false

/-- The key that a value gives to a page. -/
def givenKey (value : Value) : Option Text :=
  optionalText (Value.field (settingsOf value) "key")

/-- The value has the settings that a page must have. -/
def IsPage (value : Value) : Prop :=
  value.entries?.isSome = true ∧ (givenKey value).isSome = true ∧
    (optionalText (Value.field (settingsOf value) "template")).isSome = true

/-- The value may stand for labels: it is a mapping, or null. -/
def IsLabels : Value → Prop
  | .null => True
  | value => value.entries?.isSome = true

/-- The value stands for an integer. -/
def IsInteger : Value → Prop
  | .integer _ | .boolean _ => True
  | .float value => value.truncate?.isSome = true
  | .text text => (integerOfText? text).isSome = true
  | .bytes bytes => (integerOfText? (bytes.map fun byte ↦ Char.ofNat byte.toNat)).isSome = true
  | _ => False

/-- The settings of extraction that are labels. -/
def labelSettings : List String :=
  ["nav_labels", "shared_buttons", "footer_headings", "footer_links", "region_names"]

/-- What a part of a configuration must be. -/
def Part.Sound (groups : Group) : Part → Prop
  | .locales =>
    let locales := settingsOf (Value.field groups "locales")
    locales.isEmpty = false ∧ ∀ entry ∈ locales, IsLocale entry.2
  | .site => IsGroup (Value.field groups "site")
  | .source =>
    textOr (settingsOf (Value.field groups "site")) "source_locale" "en".toList ∈
      (settingsOf (Value.field groups "locales")).map fun entry ↦ entry.1.keyText
  | .pages =>
    let pages := (Value.field groups "pages").items?.getD []
    pages.isEmpty = false ∧ (∀ value ∈ pages, IsPage value) ∧ (pages.map givenKey).Nodup
  | .address =>
    (optionalText (Value.field (settingsOf (Value.field groups "site")) "base_url")).isSome = true
  | .extraction => IsGroup (Value.field groups "extraction")
  | .labels =>
    ∀ name ∈ labelSettings, IsLabels (Value.field (settingsOf (Value.field groups "extraction")) name)
  | .translation => IsGroup (Value.field groups "translation")
  | .replyLength =>
    ∀ value ∈ Value.find? (settingsOf (Value.field groups "translation")) "max_tokens".toList,
      IsInteger value

instance (value : Value) : Decidable (IsGroup value) :=
  inferInstanceAs (Decidable (_ ∨ _))

instance (value : Value) : Decidable (IsLocale value) :=
  inferInstanceAs (Decidable (_ ∧ _))

instance (value : Value) : Decidable (IsPage value) :=
  inferInstanceAs (Decidable (_ ∧ _))

instance (value : Value) : Decidable (IsLabels value) :=
  match value with
  | .null => inferInstanceAs (Decidable True)
  | .boolean _ | .integer _ | .float _ | .date _ | .moment _ | .text _ | .bytes _ | .sequence _ | .mapping _
  | .pair _ _ | .set _ | .listed _ => inferInstanceAs (Decidable (_ = _))

instance (value : Value) : Decidable (IsInteger value) :=
  match value with
  | .integer _ | .boolean _ => inferInstanceAs (Decidable True)
  | .float _ | .text _ | .bytes _ => inferInstanceAs (Decidable (_ = _))
  | .null | .date _ | .moment _ | .sequence _ | .mapping _ | .pair _ _ | .set _ | .listed _ =>
    inferInstanceAs (Decidable False)

instance (groups : Group) (part : Part) : Decidable (part.Sound groups) :=
  match part with
  | .locales => inferInstanceAs (Decidable (_ ∧ _))
  | .pages => inferInstanceAs (Decidable (_ ∧ _ ∧ _))
  | .site | .extraction | .translation => inferInstanceAs (Decidable (IsGroup _))
  | .source => inferInstanceAs (Decidable (_ ∈ _))
  | .address => inferInstanceAs (Decidable (_ = _))
  | .labels => inferInstanceAs (Decidable (∀ name ∈ labelSettings, _))
  | .replyLength => inferInstanceAs (Decidable (∀ value ∈ Value.find? _ _, _))

/-- The first part that is not sound. -/
def firstUnsound (groups : Group) : Option Part :=
  Part.inOrder.find? fun part ↦ ¬ part.Sound groups

end Soundness

section Outcomes

/-- The part that a wrong setting belongs to. -/
def partOf : SettingFault → Part
  | .noLocales | .localeNotMapping _ | .localeIncomplete _ _ => .locales
  | .unknownSource _ => .source
  | .noPages | .pageNotMapping _ | .pageIncomplete _ | .repeatedPage _ => .pages
  | .noBaseUrl => .address
  | .labelsNotMapping _ => .labels

/-- The fault is one that a part gives. -/
def Blames (fault : ConfigFault) (part : Part) : Prop :=
  match fault with
  | .setting fault => partOf fault = part
  | .groupNotMapping => part ∈ [Part.site, .extraction, .translation]
  | .integer _ => part = .replyLength
  | _ => False

variable {α β : Type} {groups : Group} {part : Part} {first second : Prop}

/-- The outcome is a result if what is asked of a part holds, and otherwise a fault of the part. -/
def Answers (part : Part) (asked : Prop) (outcome : Except ConfigFault α) : Prop :=
  (asked → ∃ result, outcome = .ok result) ∧
    (¬ asked → ∃ fault, outcome = .error fault ∧ Blames fault part)

/-- A result is given where nothing is asked. -/
theorem Answers.result (h : first) (result : α) : Answers part first (.ok result) :=
  ⟨fun _ ↦ ⟨result, rfl⟩, fun hnot ↦ absurd h hnot⟩

/-- A fault of the part is given where what is asked does not hold. -/
theorem Answers.fault (h : ¬ first) {fault : ConfigFault} (hblames : Blames fault part) :
    Answers part first (.error fault : Except ConfigFault α) :=
  ⟨fun hfirst ↦ absurd hfirst h, fun _ ↦ ⟨fault, rfl, hblames⟩⟩

/-- What is asked may be said in other words. -/
theorem Answers.congr {outcome : Except ConfigFault α} (h : Answers part first outcome)
    (hiff : first ↔ second) : Answers part second outcome :=
  ⟨fun hsecond ↦ h.1 (hiff.mpr hsecond), fun hnot ↦ h.2 fun hfirst ↦ hnot (hiff.mp hfirst)⟩

/-- What is made of a result asks for no more. -/
theorem Answers.map {outcome : Except ConfigFault α} (h : Answers part first outcome) (change : α → β) :
    Answers part first (outcome.map change) := by
  refine ⟨fun hfirst ↦ ?_, fun hnot ↦ ?_⟩
  · obtain ⟨result, rfl⟩ := h.1 hfirst
    exact ⟨change result, rfl⟩
  · obtain ⟨fault, rfl, hblames⟩ := h.2 hnot
    exact ⟨fault, rfl, hblames⟩

/-- What is asked holds if a result is given. -/
theorem Answers.holds {outcome : Except ConfigFault α} (h : Answers part first outcome) {result : α}
    (hresult : outcome = .ok result) : first := by
  by_contra hnot
  obtain ⟨fault, hfault, -⟩ := h.2 hnot
  exact absurd (hresult.symm.trans hfault) (by simp)

/-- What is asked does not hold if a fault is given, and the fault is one of the part. -/
theorem Answers.fails {outcome : Except ConfigFault α} (h : Answers part first outcome)
    {fault : ConfigFault} (hfault : outcome = .error fault) : ¬ first ∧ Blames fault part := by
  have hnot : ¬ first := fun hfirst ↦ by
    obtain ⟨result, hresult⟩ := h.1 hfirst
    exact absurd (hfault.symm.trans hresult) (by simp)
  obtain ⟨found, hfound, hblames⟩ := h.2 hnot
  obtain rfl := Except.error.inj (hfault.symm.trans hfound)
  exact ⟨hnot, hblames⟩

/-- Two readings one after the other ask for both. -/
theorem Answers.bind {outcome : Except ConfigFault α} {next : α → Except ConfigFault β}
    (h : Answers part first outcome)
    (hnext : ∀ result, outcome = .ok result → Answers part second (next result)) :
    Answers part (first ∧ second) (outcome >>= next) := by
  cases houtcome : outcome with
  | error fault =>
      obtain ⟨hnot, hblames⟩ := h.fails houtcome
      exact .fault (fun hboth ↦ hnot hboth.1) hblames
  | ok result => exact (hnext result houtcome).congr (by simp [h.holds houtcome])

/-- The outcome of checking some parts in order: a result if all of them are sound, and otherwise a fault of the
first one that is not. -/
def Checks (groups : Group) (parts : List Part) (outcome : Except ConfigFault α) : Prop :=
  match parts.find? fun part ↦ ¬ part.Sound groups with
  | none => ∃ result, outcome = .ok result
  | some part => ∃ fault, outcome = .error fault ∧ Blames fault part

/-- A reading that answers for one part checks it. -/
theorem Answers.checks {outcome : Except ConfigFault α} (h : Answers part (part.Sound groups) outcome) :
    Checks groups [part] outcome := by
  unfold Checks
  by_cases hsound : part.Sound groups
  · simpa [hsound] using h.1 hsound
  · simpa [hsound] using h.2 hsound

/-- Checking some parts and then others is checking all of them in order. -/
theorem Checks.bind {parts : List Part} {outcome : Except ConfigFault α}
    {next : α → Except ConfigFault β} (h : Checks groups parts outcome) (more : List Part)
    (hnext : ∀ result, outcome = .ok result → Checks groups more (next result)) :
    Checks groups (parts ++ more) (outcome >>= next) := by
  unfold Checks at h ⊢
  rw [List.find?_append]
  cases hfind : parts.find? fun part ↦ ¬ part.Sound groups with
  | none =>
      rw [hfind] at h
      obtain ⟨result, rfl⟩ := h
      exact hnext result rfl
  | some part =>
      rw [hfind] at h
      obtain ⟨fault, rfl, hblames⟩ := h
      exact ⟨fault, rfl, hblames⟩

end Outcomes

section Readers

/-- A value that counts as absent has no settings. -/
theorem settings_of_empty {value : Value} (h : value.isEmptyValue = true) : settingsOf value = [] := by
  cases value <;> simp_all [settingsOf, Value.entries?, Value.isEmptyValue]

/-- A group is read as the settings of its value. -/
theorem group_of_eq {value : Value} (h : IsGroup value) : groupOf value = .ok (settingsOf value) := by
  unfold groupOf
  split
  · next hempty => rw [settings_of_empty hempty]
  · next hfull =>
      obtain ⟨entries, hentries⟩ := Option.isSome_iff_exists.mp (h.resolve_left hfull)
      simp [hentries, settingsOf]

/-- Nothing else is read as a group. -/
theorem group_of_fault {value : Value} (h : ¬ IsGroup value) : groupOf value = .error .groupNotMapping := by
  simp only [IsGroup, not_or, Bool.not_eq_true, Option.isSome_eq_false_iff, Option.isNone_iff_eq_none] at h
  simp [groupOf, h.1, h.2]

/-- Reading a group asks that the value may stand for one. -/
theorem group_of_answers {part : Part} (hpart : part ∈ [Part.site, .extraction, .translation])
    (value : Value) : Answers part (IsGroup value) (groupOf value) := by
  by_cases h : IsGroup value
  · rw [group_of_eq h]
    exact .result h _
  · rw [group_of_fault h]
    exact .fault h hpart

/-- The group that is read. -/
theorem eq_settings_of_group {value : Value} {group : Group} (h : groupOf value = .ok group) :
    group = settingsOf value := by
  by_cases hgroup : IsGroup value
  · exact Except.ok.inj (h.symm.trans (group_of_eq hgroup))
  · exact absurd (h.symm.trans (group_of_fault hgroup)) (by simp)

/-- Reading a locale asks for the settings that a locale must have. -/
theorem locale_answers (code : Text) (group : Group) :
    Answers .locales (∀ name ∈ requiredLocaleSettings, (Value.field group name).isEmptyValue = false)
      (locale code group) := by
  have hmissing : (requiredLocaleSettings.filter fun name ↦ (Value.field group name).isEmptyValue) = [] ↔
      ∀ name ∈ requiredLocaleSettings, (Value.field group name).isEmptyValue = false := by
    simp [List.filter_eq_nil_iff]
  simp only [locale]
  split
  · next hsome =>
      refine .fault (fun hall ↦ ?_) rfl
      rw [hmissing.mpr hall] at hsome
      exact absurd hsome (by simp)
  · next hnone =>
      simp only [Bool.not_eq_true', Bool.not_eq_false, List.isEmpty_iff] at hnone
      exact .result (hmissing.mp hnone) _

/-- Reading the locales that are listed asks each of them to be a locale. -/
theorem locales_from_answers (locales : Entries Locale) (entries : Group) :
    Answers .locales (∀ entry ∈ entries, IsLocale entry.2) (localesFrom locales entries) := by
  induction entries generalizing locales with
  | nil => exact .result (by simp) locales
  | cons entry entries ih =>
      obtain ⟨key, value⟩ := entry
      rw [List.forall_mem_cons]
      simp only [localesFrom]
      cases hentries : value.entries? with
      | none => exact .fault (by simp [IsLocale, hentries]) rfl
      | some group =>
          have hlocale : IsLocale value ↔
              ∀ name ∈ requiredLocaleSettings, (Value.field group name).isEmptyValue = false := by
            simp [IsLocale, settingsOf, hentries]
          rw [hlocale]
          exact (locale_answers key.keyText group).bind fun found _ ↦ ih _

/-- The locales that are read have the codes that are listed, and no other. -/
theorem locales_from_codes {locales read : Entries Locale} {entries : Group}
    (h : localesFrom locales entries = .ok read) (code : Text) :
    Entries.get? read code = none ↔
      Entries.get? locales code = none ∧ code ∉ entries.map fun entry ↦ entry.1.keyText := by
  induction entries generalizing locales with
  | nil =>
      obtain rfl := Except.ok.inj h
      simp
  | cons entry entries ih =>
      obtain ⟨key, value⟩ := entry
      simp only [localesFrom] at h
      cases hentries : value.entries? with
      | none => simp [hentries] at h
      | some group =>
          rw [hentries] at h
          obtain ⟨found, -, h⟩ := bind_eq_ok.mp h
          rw [ih h, Entries.get_put, List.map_cons, List.mem_cons]
          by_cases hkey : code = key.keyText <;> simp [hkey]

/-- Reading the locales asks for one at least, and for each to be a locale. -/
theorem locales_of_answers (value : Value) :
    Answers .locales ((settingsOf value).isEmpty = false ∧ ∀ entry ∈ settingsOf value, IsLocale entry.2)
      (localesOf value) := by
  unfold localesOf settingsOf
  cases value.entries? with
  | none => exact .fault (by simp) rfl
  | some entries =>
      cases entries with
      | nil => exact .fault (by simp) rfl
      | cons entry entries => exact (locales_from_answers [] (entry :: entries)).congr (by simp)

/-- The codes of the locales that are read. -/
theorem locales_of_codes {value : Value} {locales : Entries Locale} (h : localesOf value = .ok locales)
    (code : Text) : Entries.get? locales code = none ↔
      code ∉ (settingsOf value).map fun entry ↦ entry.1.keyText := by
  unfold localesOf at h
  split at h
  · next entry entries hentries =>
      rw [locales_from_codes h, settingsOf, hentries]
      simp [Entries.get_nil]
  · exact absurd h (by simp)

/-- Reading the source locale asks for its code to be one of a locale. -/
theorem source_of_answers {value : Value} {locales : Entries Locale} (h : localesOf value = .ok locales)
    (site : Group) :
    Answers .source (textOr site "source_locale" "en".toList ∈
      (settingsOf value).map fun entry ↦ entry.1.keyText) (sourceOf site locales) := by
  have hcodes := locales_of_codes h (textOr site "source_locale" "en".toList)
  simp only [sourceOf]
  cases hget : Entries.get? locales (textOr site "source_locale" "en".toList) with
  | none => exact .fault (hcodes.mp hget) rfl
  | some locale =>
      refine .result ?_ locale
      by_contra hnot
      exact absurd (hget.symm.trans (hcodes.mpr hnot)) (by simp)

/-- A page that is read has the key that is given to it. -/
theorem page_key {number : Nat} {value : Value} {found : Page} (h : page number value = .ok found) :
    givenKey value = some found.key := by
  unfold page at h
  split at h
  · next group hentries =>
      simp only at h
      split at h
      · next key template hkey _ =>
          obtain rfl := Except.ok.inj h
          simpa [givenKey, settingsOf, hentries] using hkey
      · exact absurd h (by simp)
  · exact absurd h (by simp)

/-- Reading a page asks for the settings that a page must have. -/
theorem page_answers (number : Nat) (value : Value) :
    Answers .pages (IsPage value) (page number value) := by
  unfold page IsPage givenKey settingsOf
  cases value.entries? with
  | none => exact .fault (by simp) rfl
  | some group =>
      simp only [Option.getD_some, Option.isSome_some, true_and]
      cases optionalText (Value.field group "key") with
      | none => exact .fault (by simp) rfl
      | some key =>
          cases optionalText (Value.field group "template") with
          | none => exact .fault (by simp) rfl
          | some template => exact .result ⟨rfl, rfl⟩ _

/-- A page whose key is new keeps the keys apart. -/
theorem keys_nodup_add {pages : List Page} {found : Page} (hpages : (pages.map Page.key).Nodup)
    (hnew : ¬ (pages.any fun other ↦ other.key == found.key) = true) :
    ((pages ++ [found]).map Page.key).Nodup := by
  rw [List.map_append, List.map_singleton, List.nodup_append]
  refine ⟨hpages, List.nodup_singleton _, fun key hkey other hother heq ↦ hnew ?_⟩
  obtain ⟨page, hpage, rfl⟩ := List.mem_map.mp hkey
  rw [List.mem_singleton.mp hother] at heq
  exact List.any_eq_true.mpr ⟨page, hpage, beq_iff_eq.mpr heq⟩

/-- Reading the pages of a list asks each of them to be a page, and for no key to be given twice. -/
theorem pages_from_answers (pages : List Page) (number : Nat) {values : List Value}
    (hpages : (pages.map Page.key).Nodup) :
    Answers .pages ((∀ value ∈ values, IsPage value) ∧
      (pages.map (fun page ↦ some page.key) ++ values.map givenKey).Nodup)
      (pagesFrom pages number values) := by
  induction values generalizing pages number with
  | nil =>
      refine .result ⟨by simp, ?_⟩ pages
      rw [List.map_nil, List.append_nil]
      exact List.pairwise_map.mpr ((List.pairwise_map.mp hpages).imp fun hne heq ↦
        hne (Option.some.inj heq))
  | cons value values ih =>
      have hnext (found : Page) (hfound : page number value = .ok found) :
          Answers .pages ((∀ value ∈ values, IsPage value) ∧ (pages.map (fun page ↦ some page.key) ++
              givenKey value :: values.map givenKey).Nodup)
            (if pages.any fun other ↦ other.key == found.key then
              .error (.setting (.repeatedPage found.key))
            else pagesFrom (pages ++ [found]) (number + 1) values) := by
        rw [page_key hfound]
        split
        · next hknown =>
            refine .fault (fun hboth ↦ ?_) rfl
            obtain ⟨other, hother, hsame⟩ := List.any_eq_true.mp hknown
            have hapart := (List.nodup_append.mp hboth.2).2.2
            refine hapart _ (List.mem_map_of_mem hother) _ (List.mem_cons_self ..) ?_
            rw [beq_iff_eq.mp hsame]
        · next hnew =>
            exact (ih _ (number + 1) (keys_nodup_add hpages hnew)).congr (by simp)
      have hboth := (page_answers number value).bind hnext
      rw [List.forall_mem_cons, List.map_cons, and_assoc]
      exact hboth

/-- Reading the pages asks for one at least, for each to be a page, and for no key to be given twice. -/
theorem pages_of_answers (value : Value) :
    Answers .pages ((value.items?.getD []).isEmpty = false ∧ (∀ item ∈ value.items?.getD [], IsPage item) ∧
      ((value.items?.getD []).map givenKey).Nodup) (pagesOf value) := by
  unfold pagesOf
  split
  · next item items =>
      exact (pages_from_answers [] 1 List.nodup_nil).congr (by simp [Value.items?])
  · next hnone =>
      refine .fault (fun hall ↦ ?_) rfl
      cases value with
      | sequence items =>
          cases items with
          | nil => simp [Value.items?] at hall
          | cons item items => exact hnone item items rfl
      | _ => simp [Value.items?] at hall

/-- Reading the address asks for a text that is not blank. -/
theorem base_url_of_answers (value : Value) :
    Answers .address ((optionalText value).isSome = true) (baseUrlOf value) := by
  unfold baseUrlOf
  cases optionalText value with
  | none => exact .fault (by simp) rfl
  | some text => exact .result rfl _

/-- Reading labels asks for a mapping or null. -/
theorem labels_answers (name : String) (value : Value) :
    Answers .labels (IsLabels value) (labels name value) := by
  cases value with
  | null => exact .result trivial _
  | mapping entries | listed entries => exact .result rfl _
  | _ => exact .fault (by simp [IsLabels, Value.entries?]) rfl

/-- Reading a text as an integer asks it to stand for one. -/
theorem integer_of_shown_answers (text shown : Text) :
    Answers .replyLength ((integerOfText? text).isSome = true)
      ((integerOfShown text shown).mapError .integer) := by
  unfold integerOfShown
  cases integerOfText? text with
  | none => exact .fault (by simp) rfl
  | some integer => exact .result rfl _

/-- Reading an integer asks for a value that stands for one. -/
theorem integer_of_answers (value : Value) :
    Answers .replyLength (IsInteger value) ((integerOf value).mapError .integer) := by
  cases value with
  | integer value | boolean value => exact .result trivial _
  | float value =>
      cases value with
      | finite negative significand exponent => exact .result rfl _
      | infinity negative | nan => exact .fault (by simp [IsInteger, Binary64.truncate?]) rfl
  | text text => exact integer_of_shown_answers text _
  | bytes bytes => exact integer_of_shown_answers _ _
  | _ => exact .fault (by simp [IsInteger]) rfl

/-- Reading the greatest length of a reply asks for an integer, if it is given. -/
theorem max_tokens_of_answers (group : Group) (default : Int) :
    Answers .replyLength (∀ value ∈ Value.find? group "max_tokens".toList, IsInteger value)
      (maxTokensOf group default) := by
  unfold maxTokensOf
  cases Value.find? group "max_tokens".toList with
  | none => exact .result (by simp) default
  | some value => exact (integer_of_answers value).congr (by simp)

end Readers

section Parts

/-- Reading a vocabulary checks the group of its settings and then the labels. -/
theorem vocabulary_of_checks (groups : Group) :
    Checks groups [.extraction, .labels] (vocabularyOf (Value.field groups "extraction")) := by
  have hgroup : Answers .extraction (Part.Sound groups .extraction)
      (groupOf (Value.field groups "extraction")) := group_of_answers (by decide) _
  refine hgroup.checks.bind [.labels] fun group hread ↦ ?_
  rw [eq_settings_of_group hread]
  generalize hsettings : settingsOf (Value.field groups "extraction") = settings
  have hadded (name : String) (known : Entries Text) :
      Answers .labels (IsLabels (Value.field settings name))
        ((labels name (Value.field settings name)).map (Entries.putAll known)) :=
    (labels_answers name _).map _
  have hlabels : Part.Sound groups .labels ↔ IsLabels (Value.field settings "nav_labels") ∧
      IsLabels (Value.field settings "shared_buttons") ∧
      IsLabels (Value.field settings "footer_headings") ∧
      IsLabels (Value.field settings "footer_links") ∧
      IsLabels (Value.field settings "region_names") ∧ True := by
    simp [Part.Sound, labelSettings, hsettings]
  refine Answers.checks (Answers.congr ?_ hlabels.symm)
  refine (hadded "nav_labels" _).bind fun _ _ ↦ (hadded "shared_buttons" _).bind fun _ _ ↦
    (hadded "footer_headings" _).bind fun _ _ ↦ (hadded "footer_links" _).bind fun _ _ ↦
    (hadded "region_names" _).bind fun _ _ ↦ .result trivial _

/-- Reading the settings of the translation service checks their group and then the length of a reply. -/
theorem translation_of_checks (groups : Group) :
    Checks groups [.translation, .replyLength] (translationOf (Value.field groups "translation")) := by
  have hgroup : Answers .translation (Part.Sound groups .translation)
      (groupOf (Value.field groups "translation")) := group_of_answers (by decide) _
  refine hgroup.checks.bind [.replyLength] fun group hread ↦ ?_
  rw [eq_settings_of_group hread]
  have hlength := max_tokens_of_answers (settingsOf (Value.field groups "translation"))
    Translate.Settings.standard.maxTokens
  exact ((hlength.bind fun _ _ ↦ .result trivial _).congr (and_iff_left trivial)).checks

/-- Reading a configuration checks its parts in order. -/
theorem of_groups_checks (root : FilePath) (groups : Group) :
    Checks groups Part.inOrder (ofGroups root groups) := by
  have hlocales : Answers .locales (Part.Sound groups .locales)
      (localesOf (Value.field groups "locales")) := locales_of_answers _
  have hsite : Answers .site (Part.Sound groups .site)
      (groupOf (Value.field groups "site")) := group_of_answers (by decide) _
  have hpages : Answers .pages (Part.Sound groups .pages)
      (pagesOf (Value.field groups "pages")) := pages_of_answers _
  refine hlocales.checks.bind (Part.inOrder.drop 1) fun locales hread ↦ ?_
  refine hsite.checks.bind (Part.inOrder.drop 2) fun site hgroup ↦ ?_
  rw [eq_settings_of_group hgroup]
  have hsource : Answers .source (Part.Sound groups .source)
      (sourceOf (settingsOf (Value.field groups "site")) locales) := source_of_answers hread _
  refine hsource.checks.bind (Part.inOrder.drop 3) fun source _ ↦ ?_
  refine hpages.checks.bind (Part.inOrder.drop 4) fun pages _ ↦ ?_
  have haddress : Answers .address (Part.Sound groups .address)
      (baseUrlOf (Value.field (settingsOf (Value.field groups "site")) "base_url")) :=
    base_url_of_answers _
  refine haddress.checks.bind (Part.inOrder.drop 5) fun address _ ↦ ?_
  refine (vocabulary_of_checks groups).bind (Part.inOrder.drop 7) fun vocabulary _ ↦ ?_
  exact (translation_of_checks groups).bind [] fun translation _ ↦ ⟨_, rfl⟩

end Parts

section Files

/-- The value of a file is read as a group of groups. -/
theorem of_value_group (root : FilePath) (value : Value) :
    ofValue root value =
      match groupOf value with
      | .ok groups => ofGroups root groups
      | .error _ => .error .notMapping := by
  unfold ofValue groupOf
  split
  · rfl
  · cases value.entries? <;> rfl

/-- A value that may stand for a group is read by its settings. -/
theorem of_value_eq (root : FilePath) {value : Value} (h : IsGroup value) :
    ofValue root value = ofGroups root (settingsOf value) := by
  rw [of_value_group, group_of_eq h]

/-- Any other value is not read at all. -/
theorem of_value_fault (root : FilePath) {value : Value} (h : ¬ IsGroup value) :
    ofValue root value = .error .notMapping := by
  rw [of_value_group, group_of_fault h]

/-- A file whose text has a value is read by that value. -/
theorem load_eq {tree : FileTree} {path : FilePath} {text : Text} {value : Value}
    (hread : tree.readText path = .ok text) (hvalue : Yaml.load text = .ok value) :
    load tree path = ofValue path.parent value := by
  have hthere : (tree.at? path).isNone = false := by
    have hfile := is_file_of_read_text hread
    unfold isFile at hfile
    split at hfile
    · next hsome => simp [hsome]
    · exact absurd hfile (by simp)
  simp only [load, hthere, hread, hvalue, Bool.false_eq_true, if_false, bind, Except.bind, Except.mapError]

/-- The outcomes that reading a configuration from a value is meant to have: a configuration, a wrong setting, or
that the value is no mapping. -/
def IsDocumented : Except ConfigFault Config → Prop
  | .ok _ | .error (.setting _) | .error .notMapping => True
  | .error _ => False

/-- A fault of a part is meant to be reported exactly if the part is guarded. -/
theorem documented_of_blames {fault : ConfigFault} {part : Part} (h : Blames fault part) :
    IsDocumented (.error fault) ↔ part.isGuarded = true := by
  cases fault with
  | setting fault =>
      obtain rfl : partOf fault = part := h
      cases fault <;> exact iff_of_true trivial rfl
  | groupNotMapping =>
      have hpart : part ∈ [Part.site, .extraction, .translation] := h
      have hnone : ∀ part ∈ [Part.site, .extraction, .translation], part.isGuarded = false := by decide
      simp [IsDocumented, hnone part hpart]
  | integer fault =>
      obtain rfl : part = .replyLength := h
      exact iff_of_false id (by decide)
  | noFile | file | yaml | notMapping => exact h.elim

/-- Checking the parts of a configuration ends in a way that is meant exactly if the first one that is not sound
is guarded, and never in there being no mapping. -/
theorem Checks.documented_iff {groups : Group} {outcome : Except ConfigFault Config}
    (h : Checks groups Part.inOrder outcome) :
    (IsDocumented outcome ↔ ∀ part ∈ firstUnsound groups, part.isGuarded = true) ∧
      outcome ≠ .error .notMapping := by
  unfold Checks at h
  change match firstUnsound groups with
    | none => ∃ result, outcome = .ok result
    | some part => ∃ fault, outcome = .error fault ∧ Blames fault part at h
  cases hfirst : firstUnsound groups with
  | none =>
      rw [hfirst] at h
      obtain ⟨config, rfl⟩ := h
      exact ⟨iff_of_true trivial (by simp), by simp⟩
  | some part =>
      rw [hfirst] at h
      obtain ⟨fault, rfl, hblames⟩ := h
      refine ⟨(documented_of_blames hblames).trans (by simp), fun hnone ↦ ?_⟩
      obtain rfl := Except.error.inj hnone
      exact hblames

/-- A file whose text has a value is read in one of the ways that are meant exactly if the first part of the
configuration that is not sound is guarded. It is reported to be no mapping exactly if the value is none and does
not count as absent; otherwise the configuration is read if all parts are sound, and a fault of the first part
that is not sound is reported if there is one. -/
theorem load_documented_iff {tree : FileTree} {path : FilePath} {text : Text} {value : Value}
    (hread : tree.readText path = .ok text) (hvalue : Yaml.load text = .ok value) :
    (load tree path = .error .notMapping ↔ ¬ IsGroup value) ∧
      (IsGroup value → Checks (settingsOf value) Part.inOrder (load tree path)) ∧
      (IsDocumented (load tree path) ↔
        (IsGroup value → ∀ part ∈ firstUnsound (settingsOf value), part.isGuarded = true)) := by
  rw [load_eq hread hvalue]
  by_cases hgroup : IsGroup value
  · have hchecks := of_groups_checks path.parent (settingsOf value)
    obtain ⟨hdocumented, hmapping⟩ := hchecks.documented_iff
    rw [of_value_eq _ hgroup]
    exact ⟨iff_of_false hmapping (not_not_intro hgroup), fun _ ↦ hchecks,
      hdocumented.trans ⟨fun h _ ↦ h, fun h ↦ h hgroup⟩⟩
  · rw [of_value_fault _ hgroup]
    exact ⟨iff_of_true rfl hgroup, fun h ↦ absurd h hgroup, iff_of_true trivial fun h ↦ absurd h hgroup⟩

/-- A text in place of the settings of the site is not reported as a wrong setting. -/
theorem load_documented_iff_text_site :
    let text := ("site: text\nlocales:\n  en:\n    og_locale: en_GB\n    html_lang: en\n    name: English\n" ++
      "pages:\n  - key: home\n    template: index.html\n").toList
    let tree : FileTree := ⟨["work".toList], [(["work".toList], .directory),
      (["work".toList, "site.yaml".toList], .file (.text text))]⟩
    let path : FilePath := ⟨[], ["site.yaml".toList]⟩
    ∃ value, tree.readText path = .ok text ∧ Yaml.load text = .ok value ∧
      (load tree path = .error .notMapping ↔ ¬ IsGroup value) ∧
      (IsGroup value → Checks (settingsOf value) Part.inOrder (load tree path)) ∧
      (IsDocumented (load tree path) ↔
        (IsGroup value → ∀ part ∈ firstUnsound (settingsOf value), part.isGuarded = true)) ∧
      firstUnsound (settingsOf value) = some .site ∧ ¬ IsDocumented (load tree path) := by
  intro text tree path
  have hread : tree.readText path = .ok text := by decide +kernel
  have hsome : ((Yaml.load text).toOption.any fun value ↦
      decide (IsGroup value ∧ firstUnsound (settingsOf value) = some .site)) = true := by decide +kernel
  -- What the file says is settled, and the tree must not be unfolded from here on.
  clear_value tree path text
  obtain ⟨value, hvalue, hsite⟩ := (Option.any_eq_true _ _).mp hsome
  rw [to_option_iff] at hvalue
  obtain ⟨hgroup, hfirst⟩ := of_decide_eq_true hsite
  obtain ⟨hmapping, hchecks, hdocumented⟩ := load_documented_iff hread hvalue
  refine ⟨value, hread, hvalue, hmapping, hchecks, hdocumented, hfirst, fun h ↦ ?_⟩
  have hguarded : Part.site.isGuarded = true := hdocumented.mp h hgroup .site (Option.mem_def.mpr hfirst)
  exact Bool.noConfusion hguarded

end Files

end Config

end LocalizedSite
