import LocalizedSite.Proofs.Json.Sides
import LocalizedSite.Proofs.Json.Texts
import LocalizedSite.Proofs.Text.Blanks
import LocalizedSite.Proofs.Translate.Served

/-!
# Reading a reply back

A reply is looked through for a code fence before it is read as JSON, so that a fence in a name or in a
value counts as well. A text of a mapping is read back as it stands if and only if it does not have two
marks of a fence, and inside of a fence if and only if it has none (`reply_reads_back`). In particular
every mapping without such a mark is read back.
-/

namespace LocalizedSite.Translate

open Dictionary Json

variable {text before after : Text} {texts : Entries Text}

/-- A text has a mark of a code fence and another one behind it. -/
def HasClosedFence (text : Text) : Prop :=
  ∃ front inside back, text = front ++ (fenceMark ++ (inside ++ (fenceMark ++ back)))

/-- What may stand directly behind the opening mark of a code fence. -/
def IsLabel (label : Text) : Prop :=
  label = [] ∨ label = "json".toList

/-- What follows the opening mark of a code fence, without the label. -/
def withoutLabel (following : Text) : Text :=
  (Text.after? "json".toList following).getD following

section Fences

/-- What is inside of a code fence stands behind the opening mark, up to the next one. -/
theorem inside_fence_of_cut {front following : Text}
    (h : Text.cut? fenceMark text = some (front, following)) :
    insideFence? text = (Text.cut? fenceMark (withoutLabel following)).map Prod.fst := by
  unfold insideFence?
  rw [h]
  show (Text.cut? fenceMark (withoutLabel following)).bind _ = _
  cases Text.cut? fenceMark (withoutLabel following) with
  | none => rfl
  | some cut => rfl

theorem IsLabel.no_backtick {label : Text} (h : IsLabel label) : '`' ∉ label := by
  rcases h with rfl | rfl
  · exact List.not_mem_nil
  · decide

/-- A label stands in front of what follows without it. -/
theorem without_label_spec (following : Text) :
    ∃ label, IsLabel label ∧ following = label ++ withoutLabel following := by
  unfold withoutLabel
  cases hlabel : Text.after? "json".toList following with
  | none => exact ⟨[], .inl rfl, rfl⟩
  | some body => exact ⟨"json".toList, .inr rfl, Text.after_eq_some.mp hlabel⟩

/-- What is inside of a code fence stands between two marks, behind a label. -/
theorem inside_fence_spec {inside : Text} (h : insideFence? text = some inside) :
    ∃ front label back, IsLabel label ∧
      text = front ++ (fenceMark ++ (label ++ (inside ++ (fenceMark ++ back)))) := by
  cases hopening : Text.cut? fenceMark text with
  | none => exact absurd h (by simp [insideFence?, hopening])
  | some cut =>
      obtain ⟨front, following⟩ := cut
      rw [inside_fence_of_cut hopening] at h
      obtain ⟨⟨_, back⟩, hclosing, rfl⟩ := Option.map_eq_some_iff.mp h
      obtain ⟨label, hlabel, hfollowing⟩ := without_label_spec following
      refine ⟨front, label, back, hlabel, ?_⟩
      rw [Text.cut_eq_some hopening, hfollowing, Text.cut_eq_some hclosing]
      simp

/-- There is a code fence exactly if there are two marks. -/
theorem inside_fence_eq_none : insideFence? text = none ↔ ¬ HasClosedFence text := by
  constructor
  · rintro hnone ⟨front, inside, back, htext⟩
    have hsplit : text = front ++ fenceMark ++ (inside ++ (fenceMark ++ back)) := by
      rw [htext, List.append_assoc]
    cases hopening : Text.cut? fenceMark text with
    | none => exact Text.cut_eq_none.mp hopening ⟨front, _, hsplit.symm⟩
    | some cut =>
        obtain ⟨earlier, following⟩ := cut
        -- the first mark is no later than this one, so that the other mark is behind it
        have hlength := Text.cut_first hopening hsplit
        have hwhole := Text.length_of_cut hopening
        have hsuffix : following <:+ text := ⟨_, (Text.cut_eq_some hopening).symm⟩
        have hbehind : inside ++ (fenceMark ++ back) <:+ following := by
          refine List.suffix_of_suffix_length_le ⟨_, hsplit.symm⟩ hsuffix ?_
          rw [hsplit, List.length_append, List.length_append] at hwhole
          omega
        have hmark : fenceMark <:+: following :=
          List.IsInfix.trans ⟨inside, back, by simp⟩ hbehind.isInfix
        obtain ⟨label, hlabel, hfollowing⟩ := without_label_spec following
        have hinside : fenceMark <:+: withoutLabel following := by
          rw [hfollowing] at hmark
          exact (Text.infix_append_iff hlabel.no_backtick).mp hmark
        rw [inside_fence_of_cut hopening, Option.map_eq_none_iff] at hnone
        exact Text.cut_eq_none.mp hnone hinside
  · intro hopen
    cases hinside : insideFence? text with
    | none => rfl
    | some inside =>
        obtain ⟨front, label, back, -, htext⟩ := inside_fence_spec hinside
        exact absurd ⟨front, label ++ inside, back, by rw [htext]; simp⟩ hopen

/-- What is read of a reply without a code fence is the reply. -/
theorem reply_body_of_none {reply : Text} (h : insideFence? (Text.trim reply) = none) :
    replyBody reply = Text.trim reply := by
  simp [replyBody, h]

/-- What is read of a reply with a code fence is what is inside. -/
theorem reply_body_of_some {reply inside : Text} (h : insideFence? (Text.trim reply) = some inside) :
    replyBody reply = Text.trim inside := by
  simp [replyBody, h]

end Fences

section Bare

/-- Nothing but a text of a mapping is left when blanks around it are removed. -/
theorem trim_texts (htext : SpellsTexts texts text)
    (hbefore : ∀ character ∈ before, Text.isBlank character = true)
    (hafter : ∀ character ∈ after, Text.isBlank character = true) :
    Text.trim (before ++ (text ++ after)) = text := by
  obtain ⟨inner, rfl⟩ := htext.braces
  have hstart : Text.trimStart before = [] := List.dropWhile_eq_nil_iff.mpr hbefore
  have hend : Text.trimEnd after = [] := by
    have hreverse : after.reverse.dropWhile Text.isBlank = [] :=
      List.dropWhile_eq_nil_iff.mpr fun character hmem ↦ hafter character (List.mem_reverse.mp hmem)
    rw [Text.trimEnd, Text.trimEndWhere, hreverse, List.reverse_nil]
  have haround := Text.trim_around (show Text.isBlank '\x7b' = false by decide)
    (show Text.isBlank '\x7d' = false by decide) before inner after
  rw [hstart, hend] at haround
  simpa using haround

/-- What stands inside of a code fence in a JSON text begins inside of a literal. -/
theorem inside_of_fence {value : Json} {front label piece back : Text} (h : Json.parse text = .ok value)
    (hlabel : IsLabel label) (hsplit : text = front ++ (fenceMark ++ (label ++ (piece ++ back)))) :
    ∃ last, Side.inside.after? (Text.trim piece) = some last := by
  have hsides := parse_sides h
  rw [hsplit, Side.after_append] at hsides
  obtain ⟨side, -, hmark⟩ := Option.bind_eq_some_iff.mp hsides
  rw [Side.after_append] at hmark
  obtain ⟨behind, hbehind, hfollowing⟩ := Option.bind_eq_some_iff.mp hmark
  have hnone : Side.outside.after? fenceMark = none := by decide
  obtain rfl : behind = .inside := by
    cases side with
    | outside => exact absurd (hnone.symm.trans hbehind) (by simp)
    | inside => exact (Option.some.inj hbehind).symm
    | escape => exact (Option.some.inj hbehind).symm
  have hinside : Side.inside.after? label = some .inside := by
    rcases hlabel with rfl | rfl
    · rfl
    · rfl
  obtain ⟨first, last, hpiece, hfirst, -⟩ := Text.trim_spec piece
  have hblank : Side.inside.after? first = some .inside := by
    refine Side.inside_after fun character hmem ↦ ⟨?_, ?_⟩
    · rintro rfl
      exact absurd (hfirst _ hmem) (by decide)
    · rintro rfl
      exact absurd (hfirst _ hmem) (by decide)
  rw [Side.after_append, hinside, Option.bind_some, hpiece, List.append_assoc, List.append_assoc,
    Side.after_append, hblank, Option.bind_some, Side.after_append] at hfollowing
  obtain ⟨middle, hmiddle, -⟩ := Option.bind_eq_some_iff.mp hfollowing
  exact ⟨middle, hmiddle⟩

/-- A mapping mentions the names and the values of its entries. -/
theorem mentions_entry {entry : Text × Text} (h : entry ∈ texts) :
    Mentions entry.1 (ofTexts texts) ∧ Mentions entry.2 (ofTexts texts) := by
  have hmember : (entry.1, Json.string entry.2) ∈ Entries.mapValues Json.string texts :=
    List.mem_map_of_mem h
  exact ⟨.name (List.mem_map_of_mem hmember), .member hmember .string⟩

/-- A text of a mapping is read back as it stands exactly if it does not have two marks of a fence. -/
theorem bare_reads_back (htext : SpellsTexts texts text) (hnames : texts.names.Nodup)
    (hbefore : ∀ character ∈ before, Text.isBlank character = true)
    (hafter : ∀ character ∈ after, Text.isBlank character = true) :
    parseReply (before ++ (text ++ after)) = .ok texts ↔ ¬ HasClosedFence text := by
  have hparse := htext.parse hnames
  have htrim := trim_texts htext hbefore hafter
  rw [parse_reply_iff]
  constructor
  · rintro hread ⟨front, inside, back, hclosed⟩
    cases hfence : insideFence? text with
    | none => exact inside_fence_eq_none.mp hfence ⟨front, inside, back, hclosed⟩
    | some found =>
        obtain ⟨earlier, label, behind, hlabel, hsplit⟩ := inside_fence_spec hfence
        obtain ⟨last, hinside⟩ := inside_of_fence hparse hlabel hsplit
        rw [reply_body_of_some (by rw [htrim, hfence])] at hread
        have hmark : List.replicate 3 '`' <:+: text :=
          ⟨front, inside ++ (fenceMark ++ back), by rw [hclosed]; simp [fenceMark]⟩
        obtain ⟨entry, hmem, hentry⟩ := htext.run_infix (by decide) hmark
        obtain ⟨hname, hvalue⟩ := mentions_entry hmem
        -- the piece has no backtick, whatever it is read as, but the mapping has some
        rcases hentry with hrun | hrun
        · exact absurd (outer_of_mentions hread hinside hname '`' (hrun.subset (by decide))) (by decide)
        · exact absurd (outer_of_mentions hread hinside hvalue '`' (hrun.subset (by decide))) (by decide)
  · intro hopen
    rw [reply_body_of_none (by rwa [htrim, inside_fence_eq_none]), htrim]
    exact hparse

end Bare

section Fenced

/-- A code fence behind text without backticks. -/
def fenced (prose label body rest : Text) : Text :=
  prose ++ (fenceMark ++ (label ++ (body ++ (fenceMark ++ rest))))

/-- Blanks around a reply with a code fence are removed from what stands around the fence. -/
theorem trim_fenced (prose label body rest : Text) :
    Text.trim (fenced prose label body rest) =
      fenced (Text.trimStart prose) label body (Text.trimEnd rest) := by
  have hmark : Text.isBlank '`' = false := by decide
  have haround := Text.trim_around hmark hmark prose ("``".toList ++ (label ++ (body ++ "``".toList))) rest
  simpa [fenced, fenceMark] using haround

/-- What is inside of a code fence goes up to the first mark in its body, or behind it. -/
theorem inside_fenced {prose label body : Text} (hprose : '`' ∉ prose) (hlabel : IsLabel label)
    (hbody : body.head? ≠ some 'j') (rest : Text) :
    insideFence? (fenced prose label body rest) =
      (Text.cut? fenceMark (body ++ (fenceMark ++ rest))).map Prod.fst := by
  have hopening : Text.cut? fenceMark (fenced prose label body rest) =
      some (prose, label ++ (body ++ (fenceMark ++ rest))) := by
    refine Text.cut_at_end (fun hmark ↦ hprose (hmark.subset (by decide))) ?_ _
    intro character hlast hmem
    obtain rfl : character = '`' := by simpa [fenceMark] using hmem
    exact hprose (List.mem_of_getLast? hlast)
  have hwithout : withoutLabel (label ++ (body ++ (fenceMark ++ rest))) = body ++ (fenceMark ++ rest) := by
    rcases hlabel with rfl | rfl
    · have hnone : Text.after? "json".toList (body ++ (fenceMark ++ rest)) = none := by
        rw [Text.after_eq_none]
        rintro ⟨others, hothers⟩
        cases body with
        | nil => exact absurd (List.cons.inj hothers).1 (by decide)
        | cons first body => exact hbody (congrArg some (List.cons.inj hothers).1.symm)
      rw [withoutLabel, List.nil_append, hnone, Option.getD_none]
    · rw [withoutLabel, Text.after_append, Option.getD_some]
  rw [inside_fence_of_cut hopening, hwithout]

/-- Blanks in front of a delimiter delimit. -/
theorem delimited_blanks {gap rest : Text} (hgap : ∀ character ∈ gap, Text.isBlank character = true)
    (hrest : Delimited rest) : Delimited (gap ++ rest) := by
  refine .append (fun character hmem ↦ ?_) hrest
  have hblank := hgap character hmem
  refine ⟨?_, ?_, ?_, ?_⟩
  · cases hdigit : Text.isLatinDigit character with
    | false => rfl
    | true => exact absurd (hblank.symm.trans (Text.not_blank_of_digit hdigit)) (by decide)
  · rintro rfl
    exact absurd hblank (by decide)
  · rintro rfl
    exact absurd hblank (by decide)
  · rintro rfl
    exact absurd hblank (by decide)

/-- The beginning of a text of a mapping up to the mark of a fence is no JSON text. -/
theorem front_not_parsed {front back : Text} (htext : SpellsTexts texts text)
    (hnames : texts.names.Nodup) (hbefore : ∀ character ∈ before, Text.isBlank character = true)
    (hsplit : text = front ++ (fenceMark ++ back)) (value : Json) :
    Json.parse (Text.trim (before ++ front)) ≠ .ok value := by
  intro hread
  obtain ⟨inner, hbraces⟩ := htext.braces
  obtain ⟨others, rfl⟩ : ∃ others, front = '\x7b' :: others := by
    rw [hbraces] at hsplit
    cases front with
    | nil => exact absurd (List.cons.inj hsplit).1 (by decide)
    | cons first others => exact ⟨others, by rw [(List.cons.inj hsplit).1]⟩
  have hstart : Text.trimStart before = [] := List.dropWhile_eq_nil_iff.mpr hbefore
  have htrim : Text.trim (before ++ '\x7b' :: others) = Text.trimEnd ('\x7b' :: others) := by
    show Text.trimEnd (Text.trimStart _) = _
    rw [Text.trim_start_append (by decide), hstart, List.nil_append]
  obtain ⟨gap, hfront, hgap⟩ := Text.trim_end_where_spec Text.isBlank ('\x7b' :: others)
  have hwhole : Text.trimEnd ('\x7b' :: others) ++ (gap ++ (fenceMark ++ back)) = text := by
    rw [hsplit, ← List.append_assoc]
    exact congrArg (· ++ _) hfront.symm
  -- behind a value there may be only a gap, but there is the mark
  have hrest := is_gap_of_parse_append (htrim ▸ hread)
    (delimited_blanks hgap (delimited_cons (by decide) ("``".toList ++ back)))
    (hwhole ▸ htext.parse hnames)
  exact absurd (hrest '`' (by simp)) (by decide)

theorem no_backtick_of_blank {gap : Text} (h : ∀ character ∈ gap, Text.isBlank character = true) :
    '`' ∉ gap :=
  fun hmem ↦ absurd (h _ hmem) (by decide)

/-- A fence around a text with a mark is closed by the first one. -/
theorem cut_body_of_mark {front back : Text}
    (hbefore : ∀ character ∈ before, Text.isBlank character = true)
    (hcut : Text.cut? fenceMark text = some (front, back)) (rest : Text) :
    Text.cut? fenceMark (before ++ (text ++ after) ++ (fenceMark ++ rest)) =
      some (before ++ front, back ++ (after ++ (fenceMark ++ rest))) := by
  have hmark : fenceMark = '`' :: "``".toList := rfl
  have hpassed := Text.cut_append hcut (after ++ (fenceMark ++ rest))
  rw [List.append_assoc, List.append_assoc]
  rw [hmark] at hpassed ⊢
  rw [Text.cut_foreign (no_backtick_of_blank hbefore), hpassed]
  rfl

/-- A fence around a text without a mark is closed behind the text. -/
theorem cut_body_of_no_mark (htext : SpellsTexts texts text)
    (hbefore : ∀ character ∈ before, Text.isBlank character = true)
    (hafter : ∀ character ∈ after, Text.isBlank character = true) (hnone : ¬ fenceMark <:+: text)
    (rest : Text) :
    Text.cut? fenceMark (before ++ (text ++ after) ++ (fenceMark ++ rest)) =
      some (before ++ (text ++ after), rest) := by
  obtain ⟨inner, hbraces⟩ := htext.braces
  have hmark : fenceMark = '`' :: "``".toList := rfl
  have hblank := no_backtick_of_blank hafter
  have hclosing : text ++ after = '\x7b' :: inner ++ '\x7d' :: after := by
    rw [hbraces]
    simp
  have hopening : '\x7b' :: inner <:+: text := ⟨[], ['\x7d'], by rw [hbraces]; simp⟩
  rw [hclosing]
  refine Text.cut_at_end ?_ ?_ _
  · rw [hmark] at hnone ⊢
    rw [Text.infix_append_iff (no_backtick_of_blank hbefore),
      Text.infix_append_of_not_mem (by decide) hblank]
    exact fun hpiece ↦ hnone (hpiece.trans hopening)
  · intro character hlast hmem
    obtain rfl : character = '`' := by simpa [fenceMark] using hmem
    rw [List.getLast?_append_of_ne_nil _ (by simp), List.getLast?_append_of_ne_nil _ (by simp)] at hlast
    rcases List.mem_cons.mp (List.mem_of_getLast? hlast) with hbrace | hmem
    · exact absurd hbrace (by decide)
    · exact hblank hmem

/-- A text of a mapping is read back from inside of a code fence exactly if it has no mark of a fence. -/
theorem fenced_reads_back {prose label : Text} (htext : SpellsTexts texts text)
    (hnames : texts.names.Nodup) (hbefore : ∀ character ∈ before, Text.isBlank character = true)
    (hafter : ∀ character ∈ after, Text.isBlank character = true) (hprose : '`' ∉ prose)
    (hlabel : IsLabel label) (rest : Text) :
    parseReply (fenced prose label (before ++ (text ++ after)) rest) = .ok texts ↔
      ¬ fenceMark <:+: text := by
  have hhead : (before ++ (text ++ after)).head? ≠ some 'j' := by
    obtain ⟨inner, hbraces⟩ := htext.braces
    cases before with
    | nil => simp [hbraces]
    | cons first before =>
        intro hfirst
        obtain rfl := Option.some.inj hfirst
        exact absurd (hbefore 'j' (List.mem_cons_self ..)) (by decide)
  have hfront : '`' ∉ Text.trimStart prose := fun hmem ↦
    hprose ((List.dropWhile_sublist Text.isBlank).subset hmem)
  have hinside := inside_fenced hfront hlabel hhead (Text.trimEnd rest)
  rw [← trim_fenced] at hinside
  rw [parse_reply_iff]
  cases hcut : Text.cut? fenceMark text with
  | none =>
      have hnone := Text.cut_eq_none.mp hcut
      refine iff_of_true ?_ hnone
      rw [cut_body_of_no_mark htext hbefore hafter hnone] at hinside
      rw [reply_body_of_some hinside, trim_texts htext hbefore hafter]
      exact htext.parse hnames
  | some cut =>
      obtain ⟨front, back⟩ := cut
      have hsplit : text = front ++ (fenceMark ++ back) := by
        rw [Text.cut_eq_some hcut, List.append_assoc]
      have hmark : fenceMark <:+: text := ⟨front, back, by rw [hsplit, List.append_assoc]⟩
      refine iff_of_false (fun hread ↦ ?_) (not_not.mpr hmark)
      rw [cut_body_of_mark hbefore hcut] at hinside
      rw [reply_body_of_some hinside] at hread
      exact front_not_parsed htext hnames hbefore hsplit _ hread

end Fenced

/-- A text of a mapping, with any blanks around it, is read back as the mapping exactly if it does not have
two marks of a code fence. The same text inside of a code fence, with any prose without backticks in front
and anything behind, is read back exactly if it has no such mark. A mark in the text is one in a name or in
a value of the mapping. -/
theorem reply_reads_back (htext : SpellsTexts texts text) (hnames : texts.names.Nodup)
    (hbefore : ∀ character ∈ before, Text.isBlank character = true)
    (hafter : ∀ character ∈ after, Text.isBlank character = true) :
    (parseReply (before ++ (text ++ after)) = .ok texts ↔ ¬ HasClosedFence text) ∧
    (∀ prose label rest, '`' ∉ prose → IsLabel label →
      (parseReply (fenced prose label (before ++ (text ++ after)) rest) = .ok texts ↔
        ¬ fenceMark <:+: text)) ∧
    (fenceMark <:+: text → ∃ entry ∈ texts, fenceMark <:+: entry.1 ∨ fenceMark <:+: entry.2) := by
  refine ⟨bare_reads_back htext hnames hbefore hafter, ?_, ?_⟩
  · intro prose label rest hprose hlabel
    exact fenced_reads_back htext hnames hbefore hafter hprose hlabel rest
  · have hthree : fenceMark = List.replicate 3 '`' := rfl
    rw [hthree]
    exact htext.run_infix (by decide)

/-- A greeting is read back as it stands and from inside of a code fence; a value with a piece of code in
fences is lost both ways. -/
theorem reply_reads_back_code :
    let greeting : Entries Text := [("h1".toList, "Hallo".toList)]
    let code : Entries Text := [("h1".toList, "Use ```code``` here".toList)]
    let prose := "Here is the translation:\n".toList
    parseReply (dump (ofTexts greeting) ++ ['\n']) = .ok greeting ∧
    parseReply (fenced prose "json".toList (['\n'] ++ (dump (ofTexts greeting) ++ ['\n'])) []) =
      .ok greeting ∧
    parseReply (dump (ofTexts code) ++ ['\n']) ≠ .ok code ∧
    parseReply (fenced prose "json".toList (['\n'] ++ (dump (ofTexts code) ++ ['\n'])) []) ≠ .ok code := by
  intro greeting code prose
  have hblank : ∀ character ∈ ['\n'], Text.isBlank character = true :=
    List.forall_mem_singleton.mpr (by decide)
  have hnone : ∀ character ∈ ([] : Text), Text.isBlank character = true :=
    List.forall_mem_nil _
  have hgreeting : ¬ fenceMark <:+: dump (ofTexts greeting) := fun hmark ↦
    absurd (hmark.subset (show '`' ∈ fenceMark by decide)) (by decide)
  have hcode : HasClosedFence (dump (ofTexts code)) :=
    ⟨"\x7b\n  \"h1\": \"Use ".toList, "code".toList, " here\"\n\x7d".toList, rfl⟩
  have hopen : ¬ HasClosedFence (dump (ofTexts greeting)) := by
    rintro ⟨front, inside, back, hclosed⟩
    exact hgreeting ⟨front, _, by rw [hclosed, List.append_assoc]⟩
  have hmark : fenceMark <:+: dump (ofTexts code) := by
    obtain ⟨front, inside, back, hclosed⟩ := hcode
    exact ⟨front, _, by rw [hclosed, List.append_assoc]⟩
  have hlabel : IsLabel "json".toList := .inr rfl
  have hbare (texts : Entries Text) (hnames : texts.names.Nodup) :=
    (reply_reads_back (spells_texts_render 2 texts) hnames hnone hblank).1
  have hfenced (texts : Entries Text) (hnames : texts.names.Nodup) :=
    (reply_reads_back (spells_texts_render 2 texts) hnames hblank hblank).2.1 prose "json".toList []
      (by decide) hlabel
  exact ⟨(hbare greeting (by decide)).mpr hopen, (hfenced greeting (by decide)).mpr hgreeting,
    fun hread ↦ (hbare code (by decide)).mp hread hcode,
    fun hread ↦ (hfenced code (by decide)).mp hread hmark⟩

/-- What is read between two marks may even be another mapping. -/
example : parseReply "\x7b\"```\x7b\":\":\",\"\x7d```\":\"y\"\x7d".toList =
    .ok [([':'], [','])] := by cbv

end LocalizedSite.Translate
