import LocalizedSite.Proofs.Files.Regular
import LocalizedSite.Proofs.Files.Stations

/-!
# What copying a directory makes

Everything below a directory goes to a place of its own when the directory is copied (`landing`), and
nothing else changes (`copied_of_copy_directory`). So it does not matter in which order a tree lists its
files: trees that are alike are alike after a directory is copied in both.
-/

namespace LocalizedSite

namespace FileTree

variable {tree made current next after first second rest : FileTree} {source target : FilePath}
  {base home place : Location} {entry : Location × FileNode} {content : Content}

/-- Where something below a directory goes when the directory is copied to another place: to its place below
that one or, if it is a file and a directory is there, into that directory under its own name. -/
def landing (made : FileTree) (base : Location) (entry : Location × FileNode) : Location :=
  match entry.2, made.node? (base ++ entry.1) with
  | .file _, some .directory => base ++ entry.1 ++ [entry.1.getLast?.getD []]
  | _, _ => base ++ entry.1

/-- A directory goes to its place, and so does a file unless a directory is there. -/
theorem landing_cases (made : FileTree) (base names : Location) (node : FileNode) :
    landing made base (names, node) = base ++ names ∧
        (∀ content, node = .file content → made.node? (base ++ names) ≠ some .directory) ∨
      (∃ content, node = .file content) ∧ made.node? (base ++ names) = some .directory ∧
        landing made base (names, node) = base ++ names ++ [names.getLast?.getD []] := by
  unfold landing
  cases node with
  | directory => exact .inl ⟨rfl, fun _ h ↦ absurd h (by simp)⟩
  | file content =>
      cases hplace : made.node? (base ++ names) with
      | none => exact .inl ⟨rfl, by simp⟩
      | some found =>
          cases found with
          | directory => exact .inr ⟨⟨content, rfl⟩, rfl, rfl⟩
          | file held => exact .inl ⟨rfl, by simp⟩

/-- What goes somewhere goes below the target. -/
theorem prefix_landing (made : FileTree) (base : Location) (entry : Location × FileNode) :
    base <+: landing made base entry := by
  obtain ⟨names, node⟩ := entry
  rcases landing_cases made base names node with ⟨heq, -⟩ | ⟨-, -, heq⟩
  · rw [heq]
    exact List.prefix_append ..
  · rw [heq, List.append_assoc]
    exact List.prefix_append ..

section Below

variable (htree : tree.IsRegular)
include htree

/-- Below a directory there is one thing at a place. -/
theorem below_unique {names : Location} {node other : FileNode} (h : (names, node) ∈ tree.below home)
    (hother : (names, other) ∈ tree.below home) : node = other := by
  have hnode := (htree.mem_below.mp h).2
  rw [(htree.mem_below.mp hother).2] at hnode
  exact (Option.some.inj hnode).symm

/-- What something below a directory stands in is a directory too. -/
theorem directory_of_below {front back : Location} {node : FileNode}
    (h : (front ++ back, node) ∈ tree.below home) (hfront : front ≠ []) (hback : back ≠ []) :
    (front, .directory) ∈ tree.below home := by
  refine htree.mem_below.mpr ⟨hfront, ?_⟩
  obtain ⟨name, names, rfl⟩ := List.exists_cons_of_ne_nil hback
  have hplace := (htree.mem_below.mp h).2
  have habove : tree.node? (home ++ front ++ [name] ++ names) ≠ none := by
    rw [show home ++ front ++ [name] ++ names = home ++ (front ++ name :: names) by simp, hplace]
    simp
  exact htree.closed (home ++ front) name (htree.closed.above habove)

/-- Nothing stands below a file. -/
theorem not_below_file {names : Location} {name : Text} {node : FileNode}
    (h : (names, .file content) ∈ tree.below home) : (names ++ [name], node) ∉ tree.below home := by
  intro hinside
  have hdirectory := directory_of_below htree hinside (htree.mem_below.mp h).1 (by simp)
  exact absurd (below_unique htree h hdirectory) (by simp)

/-- Different things go to different places. -/
theorem landing_injective {other : Location × FileNode} (h : entry ∈ tree.below home)
    (hother : other ∈ tree.below home)
    (hsame : landing made base entry = landing made base other) : entry = other := by
  obtain ⟨names, node⟩ := entry
  obtain ⟨others, found⟩ := other
  have hequal (heq : names = others) : (names, node) = (others, found) := by
    subst heq
    rw [below_unique htree h hother]
  rcases landing_cases made base names node with ⟨hfirst, -⟩ | ⟨⟨content, hfile⟩, -, hfirst⟩
  · rcases landing_cases made base others found with ⟨hsecond, -⟩ | ⟨⟨held, hheld⟩, -, hsecond⟩
    · rw [hfirst, hsecond] at hsame
      exact hequal (List.append_cancel_left hsame)
    · rw [hfirst, hsecond, List.append_assoc] at hsame
      rw [List.append_cancel_left hsame] at h
      exact absurd h (not_below_file htree (hheld ▸ hother))
  · rcases landing_cases made base others found with ⟨hsecond, -⟩ | ⟨-, -, hsecond⟩
    · rw [hfirst, hsecond, List.append_assoc] at hsame
      rw [← List.append_cancel_left hsame] at hother
      exact absurd hother (not_below_file htree (hfile ▸ h))
    · rw [hfirst, hsecond] at hsame
      exact hequal (List.append_cancel_left (List.append_inj' hsame rfl).1)

end Below

/-- Some of what is copied below a place has been copied: each thing stands where it goes, and nothing else
has changed, apart from directories that are copied. -/
structure Copied (made : FileTree) (base : Location) (entries done : List (Location × FileNode))
    (current : FileTree) : Prop where
  regular : current.IsRegular
  lasts : made.Lasts current
  landed : ∀ entry ∈ done, current.node? (landing made base entry) = some entry.2
  elsewhere : ∀ place, (∀ names, (names, .directory) ∈ entries → place ≠ base ++ names) →
    (∀ entry ∈ done, place ≠ landing made base entry) → current.node? place = made.node? place

section Steps

variable {entries done : List (Location × FileNode)} {names : Location}

/-- A path behind one that leads to a directory leads to a directory exactly if one is there. -/
theorem is_directory_iff (h : tree.Reaches target base) (hclosed : tree.IsClosed) (hup : upName ∉ names) :
    tree.isDirectory (target.join ⟨[], names⟩) = true ↔ tree.node? (base ++ names) = some .directory := by
  have hspelt := spelt_below tree.workingDirectory target hup
  rw [h.spelt] at hspelt
  unfold isDirectory at?
  constructor
  · intro hdirectory
    cases hlocate : tree.locate (target.join ⟨[], names⟩) with
    | error error => simp [hlocate] at hdirectory
    | ok place =>
        obtain rfl := (locate_eq_spelt hlocate).trans hspelt
        simp only [hlocate] at hdirectory
        split at hdirectory
        · next hplace => exact hplace
        · exact absurd hdirectory (by simp)
  · intro hplace
    have hlocate : tree.locate (target.join ⟨[], names⟩) = .ok (base ++ names) := by
      unfold locate
      show (target.parts ++ names).foldlM tree.enter (tree.startOf target) = _
      rw [List.foldlM_append]
      exact bind_eq_ok.mpr ⟨base, h.leads.locate, hclosed.locate hup (by rw [hplace]; simp)⟩
    simp only [hlocate, hplace]

/-- What is read behind a path, if a file is read at all. -/
theorem content_below (hsource : source.spelt tree.workingDirectory = home) (hup : upName ∉ names)
    (h : tree.content (source.join ⟨[], names⟩) = .ok content) :
    tree.node? (home ++ names) = some (.file content) := by
  obtain ⟨place, hlocate, hplace⟩ := bind_eq_ok.mp h
  have hspelt := spelt_below tree.workingDirectory source hup
  rw [hsource] at hspelt
  obtain rfl := (locate_eq_spelt hlocate).trans hspelt
  split at hplace
  · exact absurd hplace (by simp)
  · exact absurd hplace (by simp)
  · next hfile => rw [hfile, Except.ok.inj hplace]

variable (htree : tree.IsRegular)
include htree

/-- While things are copied, a directory is in the place of a file exactly if it was there before. -/
theorem Copied.directory_iff (h : Copied made base (tree.below home) done current)
    (hdone : ∀ entry ∈ done, entry ∈ tree.below home)
    (hentry : (names, .file content) ∈ tree.below home) :
    current.node? (base ++ names) = some .directory ↔ made.node? (base ++ names) = some .directory := by
  refine ⟨fun hcurrent ↦ ?_, fun hbefore ↦ h.lasts.grows.directories _ hbefore⟩
  rw [← h.elsewhere (base ++ names) (fun others hothers heq ↦ ?_) fun entry hmem heq ↦ ?_]
  · exact hcurrent
  · -- nothing below the source is both a directory and a file
    rw [← List.append_cancel_left heq] at hothers
    exact absurd (below_unique htree hothers hentry) (by simp)
  · obtain ⟨others, node⟩ := entry
    have hlanded := h.landed _ hmem
    rw [← heq, hcurrent] at hlanded
    rcases landing_cases made base others node with ⟨hplain, -⟩ | ⟨⟨held, hheld⟩, -⟩
    · rw [hplain] at heq
      have hother := hdone _ hmem
      rw [← List.append_cancel_left heq] at hother
      rw [below_unique htree hother hentry] at hlanded
      exact absurd hlanded (by simp)
    · rw [hheld] at hlanded
      exact absurd hlanded (by simp)

variable (hmade : made.Reaches target base)
include hmade

/-- A directory is copied. -/
theorem Copied.directory (h : Copied made base (tree.below home) done current)
    (hentry : (names, .directory) ∈ tree.below home)
    (hmake : current.makeDirectories (target.join ⟨[], names⟩) = .ok next) :
    Copied made base (tree.below home) (done ++ [(names, .directory)]) next := by
  obtain ⟨hnames, hup⟩ := below_spec htree.plain hentry
  have hreach := hmade.of_grows h.lasts.grows
  have hgrows := (leads_of_make_directories hmake).1
  refine ⟨h.regular.make_directories hmake, h.lasts.trans (lasts_of_make_directories hmake),
    fun entry hdone ↦ ?_, fun place hplain hdone ↦ ?_⟩
  · rcases List.mem_append.mp hdone with hdone | hlast
    · exact node_of_make_directories hmake (h.landed entry hdone)
    · obtain rfl := List.mem_singleton.mp hlast
      have hreached := reaches_of_make_directories (List.append_ne_nil_of_right_ne_nil _ hnames) hmake
      rw [hgrows.workingDirectory, spelt_below _ target hup, hreach.spelt] at hreached
      exact hreached.directory
  · -- only the places of directories that are copied can have become directories
    have hsame : next.node? place = current.node? place := by
      have hroot : (target.join ⟨[], names⟩).root = target.root := rfl
      refine (node_below_cases hreach hup hroot (List.prefix_refl _) hmake place).resolve_right
        fun ⟨hnone, _, front, ⟨back, hback⟩, heq⟩ ↦ ?_
      subst hback heq
      by_cases hfront : front = []
      · rw [hfront, List.append_nil, hreach.directory] at hnone
        exact absurd hnone (by simp)
      · by_cases hempty : back = []
        · rw [hempty, List.append_nil] at hentry
          exact hplain front hentry rfl
        · exact hplain front (directory_of_below htree hentry hfront hempty) rfl
    rw [hsame]
    exact h.elsewhere place hplain fun entry hmem ↦ hdone entry (List.mem_append_left _ hmem)

/-- The path to which a file is copied spells where it goes. -/
theorem Copied.spelt_landing (h : Copied made base (tree.below home) done current)
    (hdone : ∀ entry ∈ done, entry ∈ tree.below home)
    (hentry : (names, .file content) ∈ tree.below home) :
    (if current.isDirectory (target.join ⟨[], names⟩) then
        (target.join ⟨[], names⟩).join ⟨[], [(source.join ⟨[], names⟩).name]⟩
      else target.join ⟨[], names⟩).spelt current.workingDirectory =
        landing made base (names, .file content) := by
  obtain ⟨hnames, hup⟩ := below_spec htree.plain hentry
  have hreach := hmade.of_grows h.lasts.grows
  rcases landing_cases made base names (.file content) with ⟨heq, hfree⟩ | ⟨-, hthere, heq⟩
  · have hnone := mt (h.directory_iff htree hdone hentry).mp (hfree content rfl)
    rw [if_neg (mt (is_directory_iff hreach h.regular.closed hup).mp hnone), spelt_below _ target hup,
      hreach.spelt, heq]
  · have hthere := (h.directory_iff htree hdone hentry).mpr hthere
    have hname : (source.join ⟨[], names⟩).name = names.getLast?.getD [] := by
      show (source.parts ++ names).getLast?.getD [] = _
      rw [List.getLast?_append_of_ne_nil _ hnames]
    have hinside : upName ∉ names ++ [names.getLast?.getD []] := by
      rw [List.getLast?_eq_some_getLast hnames, Option.getD_some]
      intro hmem
      rcases List.mem_append.mp hmem with hmem | hmem
      · exact hup hmem
      · exact hup (List.mem_singleton.mp hmem ▸ List.getLast_mem hnames)
    have hjoin : (target.join ⟨[], names⟩).join ⟨[], [names.getLast?.getD []]⟩ =
        target.join ⟨[], names ++ [names.getLast?.getD []]⟩ := by
      show FilePath.mk target.root (target.parts ++ names ++ [_]) = _
      rw [List.append_assoc]
      rfl
    rw [if_pos ((is_directory_iff hreach h.regular.closed hup).mpr hthere), hname, hjoin,
      spelt_below _ target hinside, hreach.spelt, heq, List.append_assoc]

/-- A file is copied. -/
theorem Copied.file (h : Copied made base (tree.below home) done current)
    (hdone : ∀ entry ∈ done, entry ∈ tree.below home)
    (hsource : source.spelt current.workingDirectory = home)
    (hapart : ∀ names, ¬ base <+: home ++ names)
    (hfiles : ∀ place content, tree.node? place = some (.file content) →
      made.node? place = some (.file content))
    (hentry : (names, .file content) ∈ tree.below home)
    (hcopy : current.copyFile (source.join ⟨[], names⟩) (target.join ⟨[], names⟩) = .ok next) :
    Copied made base (tree.below home) (done ++ [(names, .file content)]) next := by
  obtain ⟨hnames, hup⟩ := below_spec htree.plain hentry
  obtain ⟨read, hread, hwrite⟩ := bind_eq_ok.mp hcopy
  -- The file is read as it was before, since nothing is copied to where it stands.
  obtain rfl : content = read := by
    have hsame : current.node? (home ++ names) = made.node? (home ++ names) :=
      h.elsewhere _ (fun others _ heq ↦ hapart names ⟨others, heq.symm⟩)
        fun entry _ heq ↦ hapart names (heq ▸ prefix_landing made base entry)
    rw [content_below hsource hup hread, hfiles _ _ (htree.mem_below.mp hentry).2] at hsame
    simpa using hsame.symm
  have hregular := h.regular.copy_file (List.append_ne_nil_of_right_ne_nil _ hnames) hcopy
  obtain ⟨place, hlocate, hplace, rfl⟩ := write_eq.mp hwrite
  have hroot : place ≠ [] := ne_root rfl hplace
  have hlanding : place = landing made base (names, .file content) :=
    (locate_eq_spelt hlocate).trans (h.spelt_landing htree hmade hdone hentry)
  refine ⟨hregular, h.lasts.trans (lasts_of_copy_file hcopy), fun entry hmem ↦ ?_,
    fun other hplain hothers ↦ ?_⟩
  · rw [node_set_node current hroot]
    rcases List.mem_append.mp hmem with hmem | hlast
    · split
      · next hsame =>
          rw [landing_injective htree (hdone _ hmem) hentry (hsame.trans hlanding)]
      · exact h.landed entry hmem
    · rw [List.mem_singleton.mp hlast, if_pos hlanding.symm]
  · have hne : other ≠ place := by
      rw [hlanding]
      exact hothers _ (List.mem_append_right _ (List.mem_singleton_self _))
    rw [node_set_node current hroot, if_neg hne]
    exact h.elsewhere other hplain fun entry hmem ↦ hothers entry (List.mem_append_left _ hmem)

variable (hsource : source.spelt made.workingDirectory = home)
  (hapart : ∀ names, ¬ base <+: home ++ names)
  (hfiles : ∀ place content, tree.node? place = some (.file content) →
    made.node? place = some (.file content))
include hsource hapart hfiles

/-- One thing after another is copied. -/
theorem Copied.step (h : Copied made base (tree.below home) done current)
    (hdone : ∀ entry ∈ done, entry ∈ tree.below home) (hentry : entry ∈ tree.below home)
    (hstep : copyBelow source target current entry = .ok next) :
    Copied made base (tree.below home) (done ++ [entry]) next := by
  obtain ⟨names, node⟩ := entry
  cases node with
  | directory => exact h.directory htree hmade hentry hstep
  | file content =>
      rw [← h.lasts.grows.workingDirectory] at hsource
      exact h.file htree hmade hdone hsource hapart hfiles hentry hstep

/-- All that is left is copied. -/
theorem Copied.run {left : List (Location × FileNode)}
    (h : Copied made base (tree.below home) done current) (hall : done ++ left = tree.below home)
    (hleft : left.foldlM (copyBelow source target) current = .ok after) :
    Copied made base (tree.below home) (tree.below home) after := by
  induction left generalizing done current with
  | nil =>
      obtain rfl := Except.ok.inj hleft
      rw [List.append_nil] at hall
      exact hall ▸ h
  | cons entry left ih =>
      rw [List.foldlM_cons] at hleft
      obtain ⟨next, hstep, hrest⟩ := bind_eq_ok.mp hleft
      have hdone : ∀ other ∈ done, other ∈ tree.below home := fun other hother ↦
        hall ▸ List.mem_append_left _ hother
      have hentry : entry ∈ tree.below home := hall ▸ List.mem_append_right _ (List.mem_cons_self ..)
      exact ih (h.step htree hmade hsource hapart hfiles hdone hentry hstep)
        (by rw [← hall, List.append_assoc]; rfl) hrest

end Steps

/-- Copying a directory that stands apart from its target takes everything below it to where it goes, and
changes nothing else once the target is made. -/
theorem copied_of_copy_directory (htree : tree.IsRegular) (hparts : target.parts ≠ [])
    (hsource : source.spelt tree.workingDirectory = home)
    (htarget : target.spelt tree.workingDirectory = base) (hapart : ∀ names, ¬ base <+: home ++ names)
    (hcopy : tree.copyDirectory source target = .ok after) :
    ∃ made, tree.makeDirectories target = .ok made ∧
      Copied made base (tree.below home) (tree.below home) after := by
  obtain ⟨location, hlocate, hcopy⟩ := bind_eq_ok.mp hcopy
  obtain ⟨made, hmake, hcopies⟩ := bind_eq_ok.mp hcopy
  obtain rfl : location = home := (locate_eq_spelt hlocate).trans hsource
  have hwhere := (leads_of_make_directories hmake).1.workingDirectory
  have hreach := reaches_of_make_directories hparts hmake
  rw [hwhere, htarget] at hreach
  have hstart : Copied made base (tree.below location) [] made :=
    ⟨htree.make_directories hmake, .refl made, fun _ h ↦ absurd h List.not_mem_nil, fun _ _ _ ↦ rfl⟩
  exact ⟨made, hmake, hstart.run htree hreach (hwhere ▸ hsource) hapart
    (fun _ _ hfile ↦ node_of_make_directories hmake hfile) rfl hcopies⟩

/-- A file stays as it is if no file is copied to where it stands. -/
theorem Copied.file_stays {entries : List (Location × FileNode)}
    (h : Copied made base entries entries after) (hplace : made.node? place = some (.file content))
    (hfiles : ∀ names held, (names, .file held) ∈ entries →
      base ++ names ≠ place ∧ base ++ names ++ [names.getLast?.getD []] ≠ place) :
    after.node? place = some (.file content) := by
  -- a directory cannot be made where a file stands
  have hdirectories : ∀ names, (names, .directory) ∈ entries → place ≠ base ++ names := by
    rintro names hnames rfl
    obtain ⟨held, hheld⟩ := h.lasts.files _ _ hplace
    have hlanded : after.node? (base ++ names) = some .directory := h.landed _ hnames
    rw [hlanded] at hheld
    exact absurd hheld (by simp)
  rw [h.elsewhere place hdirectories fun ⟨names, node⟩ hentry heq ↦ ?_, hplace]
  cases node with
  | directory => exact hdirectories names hentry heq
  | file held =>
      obtain ⟨hplain, hinside⟩ := hfiles names held hentry
      rcases landing_cases made base names (.file held) with ⟨hland, -⟩ | ⟨-, -, hland⟩
      · exact hplain (hland.symm.trans heq.symm)
      · exact hinside (hland.symm.trans heq.symm)

/-- It does not matter in which order things are listed. -/
theorem Copied.of_mem {entries others : List (Location × FileNode)}
    (h : Copied made base entries entries after) (hmem : ∀ entry, entry ∈ others ↔ entry ∈ entries) :
    Copied made base others others after :=
  ⟨h.regular, h.lasts, fun entry hentry ↦ h.landed entry ((hmem entry).mp hentry),
    fun place hplain hnone ↦ h.elsewhere place (fun names hnames ↦ hplain names ((hmem _).mpr hnames))
      fun entry hentry ↦ hnone entry ((hmem entry).mpr hentry)⟩

/-- What stands where when everything below a directory has been copied. -/
theorem Copied.node_eq {entries : List (Location × FileNode)} {other : FileTree}
    (h : Copied made base entries entries after) (hother : Copied other base entries entries rest)
    (hsame : ∀ place, other.node? place = made.node? place) (place : Location) :
    rest.node? place = after.node? place := by
  have hlanding (entry : Location × FileNode) : landing other base entry = landing made base entry := by
    unfold landing
    rw [hsame]
  by_cases hland : ∃ entry ∈ entries, place = landing made base entry
  · obtain ⟨entry, hentry, rfl⟩ := hland
    have hrest := hother.landed entry hentry
    rw [hlanding] at hrest
    rw [hrest, h.landed entry hentry]
  · have hnone : ∀ entry ∈ entries, place ≠ landing made base entry := fun entry hentry heq ↦
      hland ⟨entry, hentry, heq⟩
    have hplain : ∀ names, (names, .directory) ∈ entries → place ≠ base ++ names := fun names hmem ↦
      hnone _ hmem
    have hrest := hother.elsewhere place hplain fun entry hentry ↦ by
      rw [hlanding]
      exact hnone entry hentry
    rw [hrest, hsame, h.elsewhere place hplain hnone]

/-- Copying a directory that stands apart from its target in two trees that are alike leaves them alike. -/
theorem Alike.copy_directory (h : Alike first second) (hfirst : first.IsRegular)
    (hsecond : second.IsRegular) (hparts : target.parts ≠ [])
    (hsource : source.spelt first.workingDirectory = home)
    (htarget : target.spelt first.workingDirectory = base) (hapart : ∀ names, ¬ base <+: home ++ names)
    (hcopy : first.copyDirectory source target = .ok after)
    (hcopySecond : second.copyDirectory source target = .ok rest) : Alike after rest := by
  obtain ⟨made, hmake, hcopied⟩ := copied_of_copy_directory hfirst hparts hsource htarget hapart hcopy
  rw [← h.workingDirectory] at hsource htarget
  obtain ⟨other, hmakeOther, hcopiedOther⟩ :=
    copied_of_copy_directory hsecond hparts hsource htarget hapart hcopySecond
  have halike := h.make_directories hmake hmakeOther
  have hsame : ∀ entry, entry ∈ first.below home ↔ entry ∈ second.below home := by
    rintro ⟨names, node⟩
    rw [hfirst.mem_below, hsecond.mem_below, h.nodes]
  refine ⟨?_, hcopied.node_eq (hcopiedOther.of_mem hsame) halike.nodes⟩
  rw [hcopied.lasts.grows.workingDirectory, hcopiedOther.lasts.grows.workingDirectory,
    halike.workingDirectory]

end FileTree

end LocalizedSite
