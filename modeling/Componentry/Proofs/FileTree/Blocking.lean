import Componentry.Proofs.FileTree

/-!
# Files that are in the way

A file cannot be written where a directory is, nor behind a place where a file is.  In a file tree as it
should be, in which everything lies in a directory, this turns out before any directory is made: a path
is looked up name by name, and what is in the way is met before anything that is missing.

**Main statements.** If something is in the way of a text, it is not written and nothing changes
(`writeText_of_blocks`).  A text that is written lies in directories, and only those on the way to it
are new (`delivered_writeText`).
-/

namespace Componentry

namespace FileTree

variable {t t' : FileTree} {p : Path} {names ahead : List String} {there next : Location}

/-! ## Trees in which everything lies in a directory -/

/-- Whatever is in the tree lies in a directory. -/
def Rooted (t : FileTree) : Prop :=
  ∀ names name entry, t.get? (names ++ [name]) = some entry → t.get? names = some .directory

theorem Rooted.directory (h : t.Rooted) {more : List String} {entry : Entry} (hmore : more ≠ [])
    (he : t.get? (names ++ more) = some entry) : t.get? names = some .directory := by
  induction more using List.reverseRecOn generalizing entry with
  | nil => exact absurd rfl hmore
  | append_singleton more name ih =>
    rw [← List.append_assoc] at he
    have hbefore := h _ _ _ he
    cases more with
    | nil => rwa [List.append_nil] at hbefore
    | cons first more => exact ih (List.cons_ne_nil _ _) hbefore

/-- Whether all entries lie in directories. -/
def isRooted (t : FileTree) : Bool :=
  t.entries.all fun e => (t.get? e.1.dropLast).any Entry.isDirectory

theorem mem_of_find {entry : Entry} : ∀ {entries : List (Location × Entry)},
    find there entries = some entry → (there, entry) ∈ entries
  | [], h => by cases h
  | (other, first) :: entries, h => by
    rw [find] at h
    split at h
    · next he =>
      cases h
      rw [← he]
      exact List.mem_cons_self
    · exact List.mem_cons_of_mem _ (mem_of_find h)

theorem rooted_of_isRooted (h : t.isRooted = true) : t.Rooted := by
  intro names name entry he
  rw [get?, if_neg (by simp)] at he
  have hlies := List.all_eq_true.mp h _ (mem_of_find he)
  rw [List.dropLast_concat] at hlies
  cases hd : t.get? names with
  | none =>
    rw [hd] at hlies
    cases hlies
  | some found =>
    rw [hd] at hlies
    cases found with
    | file octets => cases hlies
    | directory => rfl

/-! ## Ways without dots -/

/-- Everything on the way to a place, without the place itself, is a directory. -/
theorem directory_of_foldlM (h : names.foldlM t.step there = .ok next) (hdots : ".." ∉ names)
    (hahead : ahead <+: names) (hne : ahead ≠ names) :
    t.get? (there ++ ahead) = some .directory := by
  induction names generalizing there ahead with
  | nil => exact absurd (List.prefix_nil.mp hahead) hne
  | cons name names ih =>
    obtain ⟨hname, hnames⟩ := not_or.mp (mt List.mem_cons.mpr hdots)
    rw [List.foldlM_cons] at h
    obtain ⟨middle, hstep, hrest⟩ := bind_eq_ok_iff.mp h
    obtain ⟨hdirectory, hmiddle⟩ := step_eq_ok hstep
    rw [if_neg (by simpa using Ne.symm hname)] at hmiddle
    subst hmiddle
    cases ahead with
    | nil => rwa [List.append_nil]
    | cons first ahead =>
      obtain ⟨rfl, htail⟩ := List.cons_prefix_cons.mp hahead
      have hrest := ih hrest hnames htail fun he => hne (he ▸ rfl)
      rwa [List.append_assoc] at hrest

/-- What is on the way is met before anything that is missing. -/
theorem foldlM_ne_notFound (h : t.Rooted) {entry : Entry} (hdots : ".." ∉ names)
    (hahead : ahead <+: names) (he : t.get? (there ++ ahead) = some entry)
    (hend : ahead = names ∨ ∃ octets, entry = .file octets) :
    names.foldlM t.step there ≠ .error .notFound := by
  induction names generalizing there ahead with
  | nil => rintro ⟨⟩
  | cons name names ih =>
    obtain ⟨hname, hnames⟩ := not_or.mp (mt List.mem_cons.mpr hdots)
    rw [List.foldlM_cons]
    cases ahead with
    | nil =>
      -- names are left, so what is here is a file, and it is no directory to look them up in
      obtain ⟨octets, rfl⟩ := hend.resolve_left (List.cons_ne_nil _ _).symm
      rw [List.append_nil] at he
      rw [step, he]
      rintro ⟨⟩
    | cons first ahead =>
      obtain ⟨rfl, htail⟩ := List.cons_prefix_cons.mp hahead
      -- something lies further on, so this is a directory
      rw [step, h.directory (List.cons_ne_nil _ _) he]
      dsimp only
      rw [if_neg (by simpa using Ne.symm hname)]
      split
      · rintro ⟨⟩
      · refine ih hnames htail ?_ (hend.imp_left fun hcons => (List.cons.inj hcons).2)
        rwa [List.append_assoc]

/-! ## Paths without dots -/

theorem spot_eq_parts (hdots : ".." ∉ p.parts) : p.spot = p.parts :=
  Path.withoutDots_append hdots []

theorem foldlM_of_place (h : t.place p = .ok there) : p.parts.foldlM t.step [] = .ok there := by
  obtain ⟨-, hl⟩ := locate_of_place h
  unfold locate at hl
  split at hl
  · cases hl
  · simpa using hl

theorem directory_of_place (h : t.place p = .ok there) (hdots : ".." ∉ p.parts)
    (hahead : ahead <+: p.parts) (hne : ahead ≠ p.parts) : t.get? ahead = some .directory :=
  directory_of_foldlM (foldlM_of_place h) hdots hahead hne

theorem foldlM_of_notFound {text : String} (h : t.place p = .error (.refused .notFound text)) :
    p.parts.foldlM t.step [] = .error .notFound := by
  unfold place locate at h
  rw [ite_self] at h
  split at h
  · cases h
  · split at h
    · cases h
    · cases hfold : p.parts.foldlM t.step [] with
      | ok there =>
        rw [hfold] at h
        cases h
      | error how =>
        rw [hfold] at h
        cases h
        rfl

/-- What is looked up on the way to a new directory is not missing if something is in the way. -/
theorem makeDirectory_ne_notFound (h : t.Rooted) {entry : Entry} (hdots : ".." ∉ p.parts)
    (hahead : ahead <+: p.parts) (he : t.get? ahead = some entry)
    (hend : ahead = p.parts ∨ ∃ octets, entry = .file octets) (text : String) :
    t.makeDirectory p ≠ .error (.refused .notFound text) := by
  have hway : p.parts.foldlM t.step [] ≠ .error .notFound :=
    foldlM_ne_notFound h hdots hahead he hend
  intro hmake
  unfold makeDirectory at hmake
  cases hplace : t.place p with
  | ok there =>
    rw [hplace] at hmake
    simp only [bind, Except.bind] at hmake
    split at hmake
    · cases hmake
    · cases hmake
  | error f =>
    rw [hplace] at hmake
    cases hmake
    exact hway (foldlM_of_notFound hplace)

theorem makeDirectory_eq_ok (h : t.makeDirectory p = .ok t') :
    t.place p = .ok p.spot ∧ t.get? p.spot = none := by
  obtain ⟨there, hplace, h⟩ := bind_eq_ok_iff.mp h
  obtain rfl := place_eq_spot hplace
  refine ⟨hplace, ?_⟩
  split at h
  · cases h
  · next hnone => exact hnone

theorem isDirectory_eq_true (h : t.isDirectory p = .ok true) :
    t.place p = .ok p.spot ∧ t.get? p.spot = some .directory := by
  obtain ⟨found, hfound, h⟩ := bind_eq_ok_iff.mp h
  obtain ⟨entry, rfl, hentry⟩ := (Option.any_eq_true _ _).mp (Except.ok.inj h)
  cases entry with
  | file octets => cases hentry
  | directory =>
    unfold find? findFrom at hfound
    split at hfound
    · cases hfound
    · next hnull =>
      split at hfound
      · next there hlocate =>
        have hplace : t.place p = .ok there := by
          rw [place, if_neg hnull, hlocate]
          rfl
        obtain rfl := place_eq_spot hplace
        exact ⟨hplace, Except.ok.inj hfound⟩
      · split at hfound
        · cases hfound
        · cases hfound

/-! ## What is in the way -/

/-- A directory is at the spot of the path, or a file on the way there. -/
def Blocks (t : FileTree) (p : Path) : Prop :=
  t.get? p.spot = some .directory ∨
    ∃ names octets, names <+: p.spot ∧ names ≠ p.spot ∧ t.get? names = some (.file octets)

end FileTree

/-! ## Changes that are refused -/

namespace FileChange

open FileTree (Rooted Blocks)

variable {t t' : FileTree} {p : Path}

theorem run_atOnce_error {f : FileTree → Except Fault FileTree} {e : Fault} (h : f t = .error e) :
    (atOnce f).run t = (.error e, t) := by
  unfold atOnce
  rw [run_bind_ok (run_get t), h]
  rfl

/-- A directory is made, or it is there already, or nothing changes. -/
theorem provideDirectory_cases (p : Path) (t : FileTree) :
    (∃ t', t.makeDirectory p = .ok t' ∧ (provideDirectory p).run t = (.ok (), t')) ∨
      t.isDirectory p = .ok true ∧ (provideDirectory p).run t = (.ok (), t) ∨
        ∃ f, (provideDirectory p).run t = (.error f, t) := by
  unfold provideDirectory
  rw [run_bind_ok (run_get t)]
  cases hmake : t.makeDirectory p with
  | ok t₁ => exact .inl ⟨t₁, rfl, rfl⟩
  | error f =>
    refine .inr ?_
    dsimp only
    split
    · exact .inr ⟨_, rfl⟩
    · rcases t.isDirectory p with f' | _ | _
      · exact .inr ⟨_, rfl⟩
      · exact .inr ⟨_, rfl⟩
      · exact .inl ⟨rfl, rfl⟩
    · exact .inr ⟨_, rfl⟩

/-- If nothing is missing on the way, one directory is made at most. -/
theorem run_provideDirectories (h : ∀ text, t.makeDirectory p ≠ .error (.refused .notFound text)) :
    (provideDirectories p).run t = (provideDirectory p).run t := by
  obtain ⟨anchor, parts⟩ := p
  obtain ⟨names, rfl⟩ : ∃ names, parts = names.reverse := ⟨parts.reverse, by simp⟩
  unfold provideDirectories
  rw [List.reverse_reverse]
  cases names with
  | nil => rfl
  | cons name above =>
    unfold provideNames
    rw [run_bind_ok (run_get t)]
    split
    · next text hmake => exact absurd hmake (h text)
    · rfl

/-- A directory that is there is not made again. -/
theorem run_provideDirectories_of_directory (h : t.Rooted) (hdots : ".." ∉ p.parts)
    (hd : t.get? p.spot = some .directory) : ((provideDirectories p).run t).2 = t := by
  have hparts := FileTree.spot_eq_parts hdots ▸ hd
  rw [run_provideDirectories (FileTree.makeDirectory_ne_notFound h hdots (List.prefix_refl _) hparts
    (.inl rfl))]
  rcases provideDirectory_cases p t with ⟨t', hmake, -⟩ | ⟨-, hrun⟩ | ⟨f, hrun⟩
  · cases hd.symm.trans (FileTree.makeDirectory_eq_ok hmake).2
  · rw [hrun]
  · rw [hrun]

/-- A directory is not made behind a file or in its place. -/
theorem run_provideDirectories_of_file (h : t.Rooted) (hdots : ".." ∉ p.parts) {names : List String}
    {octets : ByteArray} (hnames : names <+: p.parts) (hf : t.get? names = some (.file octets)) :
    ∃ f, (provideDirectories p).run t = (.error f, t) := by
  -- Where the path leads, everything before the last name is a directory.
  have hlast : t.place p = .ok p.spot → names = p.parts := by
    intro hplace
    by_contra hne
    cases hf.symm.trans (FileTree.directory_of_place hplace hdots hnames hne)
  rw [run_provideDirectories (FileTree.makeDirectory_ne_notFound h hdots hnames hf
    (.inr ⟨octets, rfl⟩))]
  rcases provideDirectory_cases p t with ⟨t', hmake, -⟩ | ⟨hdirectory, -⟩ | hfails
  · obtain ⟨hplace, hnone⟩ := FileTree.makeDirectory_eq_ok hmake
    rw [FileTree.spot_eq_parts hdots, ← hlast hplace, hf] at hnone
    cases hnone
  · obtain ⟨hplace, hdirectory⟩ := FileTree.isDirectory_eq_true hdirectory
    rw [FileTree.spot_eq_parts hdots, ← hlast hplace, hf] at hdirectory
    cases hdirectory
  · exact hfails

theorem prefix_dropLast {names parts : List String} (h : names <+: parts) (hne : names ≠ parts) :
    names <+: parts.dropLast := by
  rcases List.eq_nil_or_concat' parts with rfl | ⟨before, last, rfl⟩
  · exact absurd (List.prefix_nil.mp h) hne
  · rw [List.dropLast_concat]
    exact (List.prefix_concat_iff.mp h).resolve_left hne

theorem write_of_directory {octets : ByteArray} (h : t.get? p.spot = some .directory) :
    ∃ f, t.write p octets = .error f := by
  cases hwrite : t.write p octets with
  | error f => exact ⟨f, rfl⟩
  | ok t' => exact absurd h (FileTree.write_eq_ok hwrite).2.2.1

/-- **What is in the way of a text keeps it from being written, and nothing changes.** -/
theorem writeText_of_blocks (h : t.Rooted) (hdots : ".." ∉ p.parts) (hb : t.Blocks p)
    (text : String) : ∃ f, (writeText p text).run t = (.error f, t) := by
  have hdots' : ".." ∉ p.parent.parts := fun hmem => hdots (List.dropLast_subset _ hmem)
  unfold FileTree.Blocks at hb
  rw [FileTree.spot_eq_parts hdots] at hb
  rcases hb with hd | ⟨names, octets, hnames, hne, hf⟩
  · have hparent : t.get? p.parent.spot = some .directory := by
      rw [FileTree.spot_eq_parts hdots', Path.parent]
      rcases List.eq_nil_or_concat' p.parts with hnil | ⟨names, name, hconcat⟩
      · rw [hnil]
        rfl
      · rw [hconcat] at hd ⊢
        rw [List.dropLast_concat]
        exact h names name _ hd
    -- no directory is missing, and the file cannot take the place of one
    have hkept := run_provideDirectories_of_directory h hdots' hparent
    rcases hrun : (provideDirectories p.parent).run t with ⟨f | ⟨⟩, t₁⟩
    · rw [hrun] at hkept
      obtain rfl : t₁ = t := hkept
      exact ⟨f, run_bind_error hrun⟩
    · rw [hrun] at hkept
      obtain rfl : t₁ = t := hkept
      rw [← FileTree.spot_eq_parts hdots] at hd
      obtain ⟨f, hwrite⟩ : ∃ f, t₁.write p text.toUTF8 = .error f := write_of_directory hd
      exact ⟨f, (run_bind_ok hrun).trans (run_atOnce_error hwrite)⟩
  · obtain ⟨f, hrun⟩ := run_provideDirectories_of_file h hdots' (prefix_dropLast hnames hne) hf
    exact ⟨f, run_bind_error hrun⟩

/-! ## Changes that are made -/

/-- From `t` to `t'` the text has come into the file at the path, which lies in directories.  Elsewhere
nothing has changed, except that directories on the way may be new. -/
structure Delivered (p : Path) (text : String) (t t' : FileTree) : Prop where
  reads : t'.read p = .ok text.toUTF8
  directories : ∀ names, names <+: p.spot → names ≠ p.spot → t'.get? names = some .directory
  frame : ∀ place, place ≠ p.spot → t.GrowsAt t' place (place <+: p.spot)

theorem delivered_writeText (hdots : ".." ∉ p.parts) {text : String}
    (h : (writeText p text).run t = (.ok (), t')) : Delivered p text t t' := by
  have hw := written_writeText h
  have hread : t'.read p = .ok text.toUTF8 := by
    obtain ⟨last, hlast, -, hread⟩ := hw.reads _ List.mem_cons_self
    cases List.mem_singleton.mp hlast
    exact hread
  refine ⟨hread, fun names hnames hne => ?_, fun place hne => ?_⟩
  · rw [FileTree.spot_eq_parts hdots] at hnames hne
    exact FileTree.directory_of_place (FileTree.read_eq_ok_iff.mp hread).1 hdots hnames hne
  · have hframe := hw.frame place fun other hother he => by
      cases List.mem_singleton.mp hother
      exact hne he.symm
    refine hframe.imp ?_
    rintro ⟨other, hother, names, hnames, rfl⟩
    cases List.mem_singleton.mp hother
    have hwithin : names <+: p.parts := hnames.trans <| List.dropLast_prefix _
    have hdots' : ".." ∉ names := fun hmem => hdots (hwithin.subset hmem)
    have hsame : Path.withoutDots names = names := Path.withoutDots_append hdots' []
    rwa [hsame, FileTree.spot_eq_parts hdots]

end FileChange

end Componentry
