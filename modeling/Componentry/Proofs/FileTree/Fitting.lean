import Componentry.Proofs.FileTree.Blocking

/-!
# When a text is written

Names and paths have a greatest length, and no name has a null character (`Path.Fits`).  A path that fits
is looked up name by name.  Unless a file is met, it leads to its place, or a directory on the way is
missing (`place_of_fits`).  A missing directory is made, and then the next one.

**Main statement.** A text is written just when its path fits and nothing is in the way
(`writeText_succeeds_iff`).  If the path does not fit, directories on the way may be made nonetheless
(`grows_of_writeText_error`, `writeText_of_long`).
-/

namespace Componentry

/-! ## Paths that fit -/

/-- The path can be looked up: it has no null character, and neither its text nor one of its names is
too long. -/
structure Path.Fits (p : Path) : Prop where
  null : p.hasNull = false
  text : p.text.utf8ByteSize ≤ FileTree.pathLimit
  names : ∀ name ∈ p.parts, name.utf8ByteSize ≤ FileTree.nameLimit

theorem Text.size_joined_le (sep text : String) : ∀ texts : List String,
    (joined sep texts).utf8ByteSize ≤ (joined sep (texts ++ [text])).utf8ByteSize
  | [] => Nat.zero_le _
  | [s] => by
    simp only [List.cons_append, List.nil_append, joined, String.utf8ByteSize_append]
    omega
  | s :: next :: rest => by
    have hrest := size_joined_le sep text (next :: rest)
    have hcons : ∀ first more,
        joined sep (s :: first :: more) = s ++ sep ++ joined sep (first :: more) := fun _ _ => rfl
    simp only [List.cons_append, hcons, String.utf8ByteSize_append] at hrest ⊢
    omega

namespace Path

/-- The text of a path is never empty. -/
theorem size_text (p : Path) : p.text.utf8ByteSize =
    max 1 (p.anchor.text.utf8ByteSize + (Text.joined "/" p.parts).utf8ByteSize) := by
  rw [← String.utf8ByteSize_append]
  unfold text
  dsimp only
  generalize p.anchor.text ++ Text.joined "/" p.parts = s
  split
  · next hempty =>
    rw [String.isEmpty_iff.mp hempty]
    rfl
  · next hne =>
    have hpos : s.utf8ByteSize ≠ 0 := fun hz => hne (by simpa using hz)
    omega

theorem size_text_le (anchor : Anchor) (names : List String) (name : String) :
    (text ⟨anchor, names⟩).utf8ByteSize ≤ (text ⟨anchor, names ++ [name]⟩).utf8ByteSize := by
  have hjoined := Text.size_joined_le "/" name names
  rw [size_text, size_text]
  dsimp only
  omega

theorem hasNull_append (anchor : Anchor) (before after : List String) :
    hasNull ⟨anchor, before ++ after⟩ = (hasNull ⟨anchor, before⟩ || hasNull ⟨anchor, after⟩) :=
  List.any_append

/-- A path that fits still does without its last name. -/
theorem Fits.above {anchor : Anchor} {names : List String} {name : String}
    (h : Fits ⟨anchor, names ++ [name]⟩) : Fits ⟨anchor, names⟩ where
  null := by
    have hnull := h.null
    rw [hasNull_append, Bool.or_eq_false_iff] at hnull
    exact hnull.1
  text := Nat.le_trans (size_text_le anchor names name) h.text
  names n hn := h.names n (List.mem_append_left _ hn)

end Path

namespace FileTree

variable {t t' : FileTree} {p : Path} {anchor : Anchor} {names : List String} {name : String}
  {there : Location}

/-- A name is looked up in a directory. -/
theorem step_of_directory (hd : t.get? there = some .directory) (hdots : name ≠ "..")
    (hshort : name.utf8ByteSize ≤ nameLimit) : t.step there name = .ok (there ++ [name]) := by
  rw [step, hd]
  dsimp only
  rw [if_neg (by simpa using hdots), if_neg (Nat.not_lt_of_le hshort)]

theorem size_le_of_step {next : Location} (h : t.step there name = .ok next) (hdots : name ≠ "..") :
    name.utf8ByteSize ≤ nameLimit := by
  have hd := (step_eq_ok h).1
  rw [step, hd] at h
  dsimp only at h
  rw [if_neg (by simpa using hdots)] at h
  split at h
  · cases h
  · next hlong => exact Nat.le_of_not_lt hlong

theorem size_le_of_foldlM {next : Location} (h : names.foldlM t.step there = .ok next)
    (hdots : ".." ∉ names) : ∀ name ∈ names, name.utf8ByteSize ≤ nameLimit := by
  induction names generalizing there with
  | nil => exact List.forall_mem_nil _
  | cons name names ih =>
    obtain ⟨hname, hnames⟩ := not_or.mp (mt List.mem_cons.mpr hdots)
    rw [List.foldlM_cons] at h
    obtain ⟨middle, hstep, hrest⟩ := bind_eq_ok_iff.mp h
    exact List.forall_mem_cons.mpr ⟨size_le_of_step hstep (Ne.symm hname), ih hrest hnames⟩

/-- A path that leads somewhere fits. -/
theorem fits_of_place (h : t.place p = .ok there) (hdots : ".." ∉ p.parts) : p.Fits := by
  obtain ⟨hnull, hl⟩ := locate_of_place h
  refine ⟨hnull, ?_, size_le_of_foldlM (foldlM_of_place h) hdots⟩
  unfold locate at hl
  split at hl
  · cases hl
  · next hlong => exact Nat.le_of_not_lt hlong

theorem place_of_foldlM (hnull : p.hasNull = false) (htext : p.text.utf8ByteSize ≤ pathLimit) :
    t.place p = (p.parts.foldlM t.step []).mapError fun how => .refused how p.text := by
  unfold place locate
  rw [hnull, if_neg (Nat.not_lt_of_le htext), ite_self]
  rfl

/-! ## Looking up a path that fits -/

theorem prefix_ne_concat {ahead : List String} (h : ahead <+: names) : ahead ≠ names ++ [name] := by
  rintro rfl
  have hlength := h.length_le
  rw [List.length_append, List.length_singleton] at hlength
  omega

/-- No file is met on the way to a place. -/
def IsFree (t : FileTree) (names : List String) : Prop :=
  ∀ ahead octets, ahead <+: names → ahead ≠ names → t.get? ahead ≠ some (.file octets)

theorem IsFree.above (h : t.IsFree (names ++ [name])) : t.IsFree names := by
  intro ahead octets hahead hne
  exact h ahead octets (hahead.trans (List.prefix_append _ _)) (prefix_ne_concat hahead)

theorem foldlM_of_free (hdots : ".." ∉ names)
    (hshort : ∀ name ∈ names, name.utf8ByteSize ≤ nameLimit) (hfree : t.IsFree names) :
    names.foldlM t.step [] = .ok names ∨ names.foldlM t.step [] = .error .notFound := by
  induction names using List.reverseRecOn with
  | nil => exact .inl rfl
  | append_singleton names name ih =>
    obtain ⟨hnames, hname⟩ := not_or.mp (mt List.mem_append.mpr hdots)
    rw [List.mem_singleton] at hname
    obtain ⟨hshort, hlast⟩ := List.forall_mem_append.mp hshort
    rw [List.foldlM_append]
    rcases ih hnames hshort hfree.above with hok | hmissing
    · rw [hok]
      cases hd : t.get? names with
      | none =>
        refine .inr ?_
        simp [step, hd, bind, Except.bind]
      | some entry =>
        cases entry with
        | file octets => exact absurd hd (hfree names octets (List.prefix_append _ _)
          (prefix_ne_concat (List.prefix_refl _)))
        | directory =>
          refine .inl ?_
          simp [step_of_directory hd (Ne.symm hname) (hlast name List.mem_cons_self), bind, Except.bind,
            pure, Except.pure]
    · rw [hmissing]
      exact .inr rfl

/-- **A path that fits leads to its place, or a directory is missing, unless a file is met.** -/
theorem place_of_fits (hfits : p.Fits) (hdots : ".." ∉ p.parts) (hfree : t.IsFree p.parts) :
    t.place p = .ok p.parts ∨ t.place p = .error (.refused .notFound p.text) := by
  rw [place_of_foldlM hfits.null hfits.text]
  rcases foldlM_of_free hdots hfits.names hfree with h | h
  · rw [h]
    exact .inl rfl
  · rw [h]
    exact .inr rfl

/-- What lies in a missing directory is missing. -/
theorem place_of_missing (hdots : ".." ∉ names)
    (hshort : ∀ name ∈ names, name.utf8ByteSize ≤ nameLimit) (hfree : t.IsFree names)
    (hmissing : t.get? names = none) (hnull : Path.hasNull ⟨anchor, names ++ [name]⟩ = false)
    (htext : (Path.text ⟨anchor, names ++ [name]⟩).utf8ByteSize ≤ pathLimit) :
    t.place ⟨anchor, names ++ [name]⟩ =
      .error (.refused .notFound (Path.text ⟨anchor, names ++ [name]⟩)) := by
  rw [place_of_foldlM hnull htext, List.foldlM_append]
  rcases foldlM_of_free hdots hshort hfree with hok | herror
  · rw [hok]
    simp [step, hmissing, bind, Except.bind, Except.mapError]
  · rw [herror]
    rfl

/-- What lies in a directory can be looked up. -/
theorem place_in_directory (hfits : Path.Fits ⟨anchor, names ++ [name]⟩) (hname : name ≠ "..")
    (hplace : t.place ⟨anchor, names⟩ = .ok names) (hd : t.get? names = some .directory) :
    t.place ⟨anchor, names ++ [name]⟩ = .ok (names ++ [name]) := by
  have hfold := foldlM_of_place hplace
  have hlast := hfits.names name (List.mem_append_right _ List.mem_cons_self)
  rw [place_of_foldlM hfits.null hfits.text, List.foldlM_append]
  dsimp only at hfold ⊢
  rw [hfold]
  simp [step_of_directory hd hname hlast, bind, Except.bind, pure, Except.pure, Except.mapError]

theorem isDirectory_of_place (hplace : t.place p = .ok there) (hd : t.get? there = some .directory) :
    t.isDirectory p = .ok true := by
  obtain ⟨hnull, hlocate⟩ := locate_of_place hplace
  unfold isDirectory find? findFrom
  rw [hnull, hlocate]
  simp only [hd]
  rfl

theorem write_of_place {octets : ByteArray} (hplace : t.place p = .ok there)
    (h : t.get? there ≠ some .directory) :
    t.write p octets = .ok (t.insert there (.file octets)) := by
  simp [write, hplace, bind, Except.bind, pure, Except.pure]

end FileTree

/-! ## Making what is missing -/

namespace FileChange

open FileTree (Grows GrowsAt IsFree Rooted)

variable {t t' : FileTree} {p : Path} {anchor : Anchor}

theorem run_atOnce_ok {f : FileTree → Except Fault FileTree} (h : f t = .ok t') :
    (atOnce f).run t = (.ok (), t') := by
  unfold atOnce
  rw [run_bind_ok (run_get t), h]
  rfl

/-- A directory that can be looked up is there afterwards, if it is no file. -/
theorem run_provideDirectory_of_place (hplace : t.place p = .ok p.parts)
    (hfree : ∀ octets, t.get? p.parts ≠ some (.file octets)) :
    ∃ t', (provideDirectory p).run t = (.ok (), t') ∧ t'.place p = .ok p.parts ∧
      t'.get? p.parts = some .directory := by
  have hspot := FileTree.place_eq_spot hplace
  cases hd : t.get? p.parts with
  | none =>
    have hmake : t.makeDirectory p = .ok (t.insert p.parts .directory) := by
      simp [FileTree.makeDirectory, hplace, hd, bind, Except.bind, pure, Except.pure]
    have hne : p.parts ≠ [] := by
      intro he
      simp [he] at hd
    have hgrows := FileTree.grows_makeDirectory hmake
    refine ⟨_, ?_, hgrows.toExtends.place hplace, ?_⟩
    · unfold provideDirectory
      rw [run_bind_ok (run_get t), hmake]
      rfl
    · rw [FileTree.get?_insert _ _ _ _ hne, if_pos rfl]
  | some entry =>
    cases entry with
    | file octets => exact absurd hd (hfree octets)
    | directory =>
      have hmake : t.makeDirectory p = .error (.refused .alreadyThere p.text) := by
        simp [FileTree.makeDirectory, hplace, hd, bind, Except.bind, throw, throwThe, MonadExceptOf.throw]
      refine ⟨t, ?_, hplace, hd⟩
      unfold provideDirectory
      rw [run_bind_ok (run_get t), hmake]
      dsimp only
      rw [FileTree.isDirectory_of_place hplace hd]
      rfl

theorem run_provideDirectories_of_place (hplace : t.place p = .ok p.parts)
    (hfree : ∀ octets, t.get? p.parts ≠ some (.file octets)) :
    ∃ t', (provideDirectories p).run t = (.ok (), t') ∧ t'.place p = .ok p.parts ∧
      t'.get? p.parts = some .directory := by
  rw [run_provideDirectories]
  · exact run_provideDirectory_of_place hplace hfree
  · intro text hmake
    rw [FileTree.makeDirectory, hplace] at hmake
    simp only [bind, Except.bind] at hmake
    split at hmake
    · cases hmake
    · cases hmake

/-- A directory whose path does not fit is not made. -/
theorem run_provideDirectory_of_not_fits (h : ¬ p.Fits) (hdots : ".." ∉ p.parts) :
    ∃ f, (provideDirectory p).run t = (.error f, t) := by
  rcases provideDirectory_cases p t with ⟨t', hmake, -⟩ | ⟨hd, -⟩ | hfails
  · exact absurd (FileTree.fits_of_place (FileTree.makeDirectory_eq_ok hmake).1 hdots) h
  · exact absurd (FileTree.fits_of_place (FileTree.isDirectory_eq_true hd).1 hdots) h
  · exact hfails

/-- If a directory on the way is missing, that one is made first. -/
theorem run_provideDirectories_of_missing {names : List String} {name text : String}
    (h : t.makeDirectory ⟨anchor, names ++ [name]⟩ = .error (.refused .notFound text)) :
    (provideDirectories ⟨anchor, names ++ [name]⟩).run t =
      (do provideDirectories ⟨anchor, names⟩; provideDirectory ⟨anchor, names ++ [name]⟩).run t := by
  have hreverse : (name :: names.reverse).reverse = names ++ [name] := by simp
  unfold provideDirectories
  rw [List.reverse_append, List.reverse_singleton, List.singleton_append, provideNames,
    run_bind_ok (run_get t), hreverse, h]

/-- A directory is there afterwards if its path fits and no file is on the way. -/
theorem run_provideDirectories_of_fits {names : List String} (hfits : Path.Fits ⟨anchor, names⟩)
    (hdots : ".." ∉ names)
    (hfree : ∀ ahead octets, ahead <+: names → t.get? ahead ≠ some (.file octets)) :
    ∃ t', (provideDirectories ⟨anchor, names⟩).run t = (.ok (), t') ∧
      t'.place ⟨anchor, names⟩ = .ok names ∧ t'.get? names = some .directory := by
  induction names using List.reverseRecOn generalizing t with
  | nil =>
    exact run_provideDirectories_of_place (FileTree.place_of_foldlM hfits.null hfits.text)
      (hfree [] · (List.prefix_refl _))
  | append_singleton names name ih =>
    obtain ⟨hnames, hname⟩ := not_or.mp (mt List.mem_append.mpr hdots)
    rw [List.mem_singleton] at hname
    rcases FileTree.place_of_fits hfits hdots fun ahead octets hahead _ => hfree ahead octets hahead with
      hplace | hmissing
    · exact run_provideDirectories_of_place hplace (hfree _ · (List.prefix_refl _))
    · have hmake : t.makeDirectory ⟨anchor, names ++ [name]⟩ =
          .error (.refused .notFound (Path.text ⟨anchor, names ++ [name]⟩)) := by
        rw [FileTree.makeDirectory, hmissing]
        rfl
      obtain ⟨t₁, hrun, hplace, hd⟩ := ih hfits.above hnames fun ahead octets hahead =>
        hfree ahead octets (hahead.trans (List.prefix_append _ _))
      have hgrows := grows_provideDirectories ⟨anchor, names⟩ t
      rw [hrun] at hgrows
      rw [run_provideDirectories_of_missing hmake, run_bind_ok hrun]
      refine run_provideDirectory_of_place (FileTree.place_in_directory hfits (Ne.symm hname) hplace hd) ?_
      intro octets hfile
      -- the directories that were made are no files
      rcases hgrows (names ++ [name]) with hsame | ⟨-, hnew, -⟩
      · exact hfree _ octets (List.prefix_refl _) (hsame.symm.trans hfile)
      · cases hnew.symm.trans hfile

/-! ## Writing -/

theorem not_passes_parent (hne : p.parts ≠ []) (hdots : ".." ∉ p.parts) : ¬ p.parent.Passes p.parts := by
  rintro ⟨names, hnames, he⟩
  have hwithin : names <+: p.parts := hnames.trans (List.dropLast_prefix _)
  have hsame : Path.withoutDots names = names :=
    Path.withoutDots_append (fun hmem => hdots (hwithin.subset hmem)) []
  have hlength := hnames.length_le
  rw [hsame] at he
  rw [he, Path.parent, List.length_dropLast] at hlength
  have hpos := List.length_pos_iff.mpr hne
  omega

/-- **A text is written if its path fits and nothing is in the way.** -/
theorem writeText_of_fits (hfits : p.Fits) (hdots : ".." ∉ p.parts) (hfree : ¬ t.Blocks p)
    (text : String) : ((writeText p text).run t).1 = .ok () := by
  obtain ⟨anchor, parts⟩ := p
  unfold FileTree.Blocks at hfree
  rw [FileTree.spot_eq_parts hdots] at hfree
  obtain ⟨hplain, hway⟩ := not_or.mp hfree
  rcases List.eq_nil_or_concat' parts with rfl | ⟨names, name, rfl⟩
  · exact absurd rfl hplain
  obtain ⟨hnames, hname⟩ := not_or.mp (mt List.mem_append.mpr hdots)
  rw [List.mem_singleton] at hname
  have hparent : Path.parent ⟨anchor, names ++ [name]⟩ = ⟨anchor, names⟩ := by simp [Path.parent]
  obtain ⟨t₁, hrun, hplace, hd⟩ := run_provideDirectories_of_fits (t := t) hfits.above hnames
    fun ahead octets hahead hfile => hway
      ⟨ahead, octets, hahead.trans (List.prefix_append _ _), FileTree.prefix_ne_concat hahead, hfile⟩
  have hplace' := FileTree.place_in_directory hfits (Ne.symm hname) hplace hd
  have hgrows := grows_provideDirectories ⟨anchor, names⟩ t
  rw [hrun] at hgrows
  have hplain' : t₁.get? (names ++ [name]) ≠ some .directory := by
    intro hdirectory
    rcases hgrows (names ++ [name]) with hsame | ⟨-, -, hpasses⟩
    · exact hplain (hsame.symm.trans hdirectory)
    · rw [← hparent] at hpasses
      exact not_passes_parent (by simp) hdots hpasses
  unfold writeText
  rw [hparent, run_bind_ok hrun, run_atOnce_ok (FileTree.write_of_place hplace' hplain')]

/-- **A text is written just when its path fits and nothing is in the way.** -/
theorem writeText_succeeds_iff (h : t.Rooted) (hdots : ".." ∉ p.parts) (text : String) :
    ((writeText p text).run t).1 = .ok () ↔ p.Fits ∧ ¬ t.Blocks p := by
  refine ⟨fun hok => ⟨?_, fun hblocks => ?_⟩, fun ⟨hfits, hfree⟩ => writeText_of_fits hfits hdots hfree text⟩
  · obtain ⟨t', hrun⟩ : ∃ t', (writeText p text).run t = (.ok (), t') := ⟨_, Prod.ext hok rfl⟩
    have hread := (delivered_writeText hdots hrun).reads
    exact FileTree.fits_of_place (FileTree.read_eq_ok_iff.mp hread).1 hdots
  · obtain ⟨f, hrun⟩ := writeText_of_blocks h hdots hblocks text
    rw [hrun] at hok
    cases hok

/-- **A missing directory is made even if the next name is too long.** -/
theorem writeText_of_long {names : List String} {long last : String}
    (hfits : Path.Fits ⟨anchor, names⟩) (hdots : ".." ∉ names) (hfree : ¬ t.Blocks ⟨anchor, names⟩)
    (hmissing : t.get? names = none) (hnull : Path.hasNull ⟨anchor, names ++ [long]⟩ = false)
    (htext : (Path.text ⟨anchor, names ++ [long]⟩).utf8ByteSize ≤ FileTree.pathLimit)
    (hlong : FileTree.nameLimit < long.utf8ByteSize) (text : String) :
    ∃ f t', (writeText ⟨anchor, names ++ [long] ++ [last]⟩ text).run t = (.error f, t') ∧
      t'.get? names = some .directory := by
  have hway : ∀ ahead octets, ahead <+: names → t.get? ahead ≠ some (.file octets) := by
    intro ahead octets hahead hfile
    rw [FileTree.Blocks, FileTree.spot_eq_parts hdots] at hfree
    by_cases he : ahead = names
    · rw [he, hmissing] at hfile
      cases hfile
    · exact hfree (.inr ⟨ahead, octets, hahead, he, hfile⟩)
  have hname : long ≠ ".." := by
    rintro rfl
    revert hlong
    decide
  have hparent : Path.parent ⟨anchor, names ++ [long] ++ [last]⟩ = ⟨anchor, names ++ [long]⟩ := by
    simp [Path.parent]
  have hmake : t.makeDirectory ⟨anchor, names ++ [long]⟩ =
      .error (.refused .notFound (Path.text ⟨anchor, names ++ [long]⟩)) := by
    rw [FileTree.makeDirectory, FileTree.place_of_missing hdots hfits.names
      (fun ahead octets hahead _ => hway ahead octets hahead) hmissing hnull htext]
    rfl
  obtain ⟨t₁, hrun, -, hd⟩ := run_provideDirectories_of_fits (t := t) hfits hdots hway
  have hunfit : ¬ Path.Fits ⟨anchor, names ++ [long]⟩ := fun hfits =>
    Nat.not_lt_of_le (hfits.names long (by simp)) hlong
  obtain ⟨f, hfails⟩ := run_provideDirectory_of_not_fits (t := t₁) hunfit
    (by simp [hdots, Ne.symm hname])
  refine ⟨f, t₁, ?_, hd⟩
  unfold writeText
  refine run_bind_error ?_
  rw [hparent, run_provideDirectories_of_missing hmake, run_bind_ok hrun, hfails]

/-- A text that is not written leaves directories at most. -/
theorem grows_of_writeText_error {text : String} {f : Fault}
    (h : (writeText p text).run t = (.error f, t')) : Grows p.parent.Passes t t' := by
  have hgrows := grows_provideDirectories p.parent t
  rcases hrun : (provideDirectories p.parent).run t with ⟨f' | ⟨⟩, t₁⟩
  · rw [hrun] at hgrows
    cases (run_bind_error hrun).symm.trans h
    exact hgrows
  · rw [hrun] at hgrows
    rw [writeText, run_bind_ok hrun] at h
    cases hwrite : t₁.write p text.toUTF8 with
    | error f' =>
      cases (run_atOnce_error hwrite).symm.trans h
      exact hgrows
    | ok t₂ => cases (run_atOnce_ok hwrite).symm.trans h

end FileChange

end Componentry
