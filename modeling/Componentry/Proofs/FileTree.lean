import Componentry.FileTree
import Componentry.Proofs.Outcome
import Componentry.Proofs.Path

/-!
# What changes when files are written

A path leads to its spot or nowhere (`place_eq_spot`), and as long as directories stay directories it
leads there still (`Extends.place`).  Making directories on the way to a path does not touch what is
there; it only puts directories where there was nothing (`Grows`).

**Main statement.** After files are written one after the other, each of them can be read; it holds the
text that was written last at its spot.  Everywhere else there is what was there before, or a new
directory on the way to one of the files (`Written`, `written_writeTexts`).
-/

namespace Componentry

namespace FileTree

variable {t t' t'' : FileTree} {p : Path} {there : Location} {octets : ByteArray}

/-! ## Where paths lead -/

/-- A step leads on from a directory only. -/
theorem step_eq_ok {name : String} {next : Location} (h : t.step there name = .ok next) :
    t.get? there = some .directory ∧
      next = if name == ".." then there.dropLast else there ++ [name] := by
  unfold step at h
  split at h
  · next hd =>
    refine ⟨hd, ?_⟩
    split at h
    · next hup => rw [if_pos hup, ← Except.ok.inj h]
    · next hup =>
      split at h
      · cases h
      · rw [if_neg hup, ← Except.ok.inj h]
  · cases h
  · cases h

theorem foldlM_step {names : List String} {next : Location}
    (h : names.foldlM t.step there = .ok next) :
    next = names.foldl (fun done name => if name == ".." then done.dropLast else done ++ [name])
      there := by
  induction names generalizing there with
  | nil => exact (Except.ok.inj h).symm
  | cons name names ih =>
    rw [List.foldlM_cons] at h
    obtain ⟨middle, hm, next', hn, rfl⟩ := gives_bind_iff.mp ⟨_, h, rfl⟩
    rw [List.foldl_cons, ih hn, (step_eq_ok hm).2]

theorem locate_of_place (h : t.place p = .ok there) :
    p.hasNull = false ∧ t.locate [] p = .ok there := by
  unfold place at h
  split at h
  · cases h
  · next hnull =>
    refine ⟨by simpa using hnull, ?_⟩
    cases hl : t.locate [] p with
    | error how =>
      rw [hl] at h
      cases h
    | ok found =>
      rw [hl] at h
      exact congrArg Except.ok (Except.ok.inj h)

/-- **A path leads to its spot or nowhere.** -/
theorem place_eq_spot (h : t.place p = .ok there) : there = p.spot := by
  obtain ⟨-, hl⟩ := locate_of_place h
  unfold locate at hl
  split at hl
  · cases hl
  · have hstart : (if p.isAbsolute = true then ([] : Location) else []) = [] := by split <;> rfl
    rw [hstart] at hl
    exact foldlM_step hl

/-! ## Directories that stay -/

/-- Every directory of `t` is one of `t'`. -/
def Extends (t t' : FileTree) : Prop :=
  ∀ place, t.get? place = some .directory → t'.get? place = some .directory

namespace Extends

theorem refl (t : FileTree) : Extends t t :=
  fun _ h => h

theorem trans (h : Extends t t') (h' : Extends t' t'') : Extends t t'' :=
  fun place hd => h' place (h place hd)

theorem step (h : Extends t t') {name : String} {next : Location}
    (hs : t.step there name = .ok next) : t'.step there name = .ok next := by
  have hd := (step_eq_ok hs).1
  unfold FileTree.step at hs ⊢
  rw [hd] at hs
  rw [h there hd]
  exact hs

theorem foldlM (h : Extends t t') {names : List String} {next : Location}
    (hs : names.foldlM t.step there = .ok next) : names.foldlM t'.step there = .ok next := by
  induction names generalizing there with
  | nil => exact hs
  | cons name names ih =>
    rw [List.foldlM_cons] at hs ⊢
    obtain ⟨middle, hm, next', hn, rfl⟩ := gives_bind_iff.mp ⟨_, hs, rfl⟩
    rw [h.step hm]
    exact ih hn

/-- A path that leads somewhere still leads there. -/
theorem place (h : Extends t t') (hp : t.place p = .ok there) : t'.place p = .ok there := by
  obtain ⟨hnull, hl⟩ := locate_of_place hp
  have hl' : t'.locate [] p = .ok there := by
    unfold locate at hl ⊢
    split at hl
    · cases hl
    · next hlong =>
      rw [if_neg hlong]
      exact h.foldlM hl
  unfold FileTree.place
  rw [hnull, hl']
  rfl

end Extends

/-! ## Files that stay -/

theorem read_eq_ok_iff :
    t.read p = .ok octets ↔ t.place p = .ok p.spot ∧ t.get? p.spot = some (.file octets) := by
  constructor
  · intro h
    obtain ⟨_, hp, octets', h, rfl⟩ := gives_bind_iff.mp ⟨_, h, rfl⟩
    obtain rfl := place_eq_spot hp
    refine ⟨hp, ?_⟩
    split at h
    · next hf =>
      cases h
      exact hf
    · cases h
    · cases h
  · rintro ⟨hp, hf⟩
    simp only [read, hp, bind, Except.bind, hf]
    rfl

/-- From `t` to `t'` nothing changes at a place, except that a directory may come where nothing was,
if that is `allowed`. -/
def GrowsAt (t t' : FileTree) (place : Location) (allowed : Prop) : Prop :=
  t'.get? place = t.get? place ∨
    t.get? place = none ∧ t'.get? place = some .directory ∧ allowed

namespace GrowsAt

variable {allowed allowed' : Prop}

theorem refl (t : FileTree) (place : Location) (allowed : Prop) : GrowsAt t t place allowed :=
  .inl rfl

theorem imp (h : GrowsAt t t' there allowed) (himp : allowed → allowed') :
    GrowsAt t t' there allowed' := by
  obtain hsame | ⟨hnone, hnew, ha⟩ := h
  · exact .inl hsame
  · exact .inr ⟨hnone, hnew, himp ha⟩

theorem keeps (h : GrowsAt t t' there allowed) {entry : Entry} (he : t.get? there = some entry) :
    t'.get? there = some entry := by
  obtain hsame | ⟨hnone, -, -⟩ := h
  · rw [hsame, he]
  · rw [he] at hnone
    cases hnone

theorem trans (h : GrowsAt t t' there allowed) (h' : GrowsAt t' t'' there allowed) :
    GrowsAt t t'' there allowed := by
  obtain hsame | ⟨hnone, hnew, ha⟩ := h
  · unfold GrowsAt
    rw [← hsame]
    exact h'
  · exact .inr ⟨hnone, h'.keeps hnew, ha⟩

end GrowsAt

/-- From `t` to `t'` nothing changes, except that directories may come where nothing was, at places
of which `P` holds. -/
def Grows (P : Location → Prop) (t t' : FileTree) : Prop :=
  ∀ place, GrowsAt t t' place (P place)

namespace Grows

variable {P Q : Location → Prop}

theorem refl (P : Location → Prop) (t : FileTree) : Grows P t t :=
  fun place => .refl t place (P place)

theorem imp (h : Grows P t t') (hpq : ∀ place, P place → Q place) : Grows Q t t' :=
  fun place => (h place).imp (hpq place)

theorem trans (h : Grows P t t') (h' : Grows P t' t'') : Grows P t t'' :=
  fun place => (h place).trans (h' place)

theorem toExtends (h : Grows P t t') : Extends t t' :=
  fun place hd => (h place).keeps hd

end Grows

theorem grows_makeDirectory (h : t.makeDirectory p = .ok t') : Grows (· = p.spot) t t' := by
  obtain ⟨_, hp, _, h, rfl⟩ := gives_bind_iff.mp ⟨_, h, rfl⟩
  obtain rfl := place_eq_spot hp
  split at h
  · cases h
  · next hnone =>
    obtain rfl := Except.ok.inj h
    have hroot : p.spot ≠ [] := by
      intro he
      simp [he] at hnone
    intro there
    unfold GrowsAt
    rw [get?_insert _ _ _ _ hroot]
    by_cases he : p.spot = there
    · rw [if_pos he]
      exact .inr ⟨he ▸ hnone, rfl, he.symm⟩
    · rw [if_neg he]
      exact .inl rfl

theorem write_eq_ok (h : t.write p octets = .ok t') :
    p.spot ≠ [] ∧ t.place p = .ok p.spot ∧ t.get? p.spot ≠ some .directory ∧
      t' = t.insert p.spot (.file octets) := by
  obtain ⟨_, hp, _, h, rfl⟩ := gives_bind_iff.mp ⟨_, h, rfl⟩
  obtain rfl := place_eq_spot hp
  split at h
  · cases h
  · next hfree =>
    refine ⟨?_, hp, hfree, (Except.ok.inj h).symm⟩
    intro he
    exact hfree (by simp [he])

end FileTree

/-! ## Directories on the way -/

namespace FileChange

open FileTree (Grows GrowsAt Extends)

variable {t t' : FileTree} {p : Path}

theorem run_get (t : FileTree) : (get : FileChange FileTree).run t = (.ok t, t) :=
  rfl

theorem run_atOnce {f : FileTree → Except Fault FileTree}
    (h : (atOnce f).run t = (.ok (), t')) : f t = .ok t' := by
  unfold atOnce at h
  rw [run_bind_ok (run_get t)] at h
  cases hf : f t with
  | error e =>
    rw [hf] at h
    cases h
  | ok t₁ =>
    rw [hf] at h
    exact congrArg Except.ok (congrArg Prod.snd h)

theorem grows_provideDirectory (p : Path) (t : FileTree) :
    Grows (· = p.spot) t ((provideDirectory p).run t).2 := by
  unfold provideDirectory
  rw [run_bind_ok (run_get t)]
  cases hm : t.makeDirectory p with
  | ok t₁ => exact FileTree.grows_makeDirectory hm
  | error f =>
    dsimp only
    split
    · exact Grows.refl _ t
    · rcases t.isDirectory p with f' | _ | _
      · exact Grows.refl _ t
      · exact Grows.refl _ t
      · exact Grows.refl _ t
    · exact Grows.refl _ t

theorem grows_bind {P : Location → Prop} {x y : FileChange Unit}
    (hx : ∀ t, Grows P t (x.run t).2) (hy : ∀ t, Grows P t (y.run t).2) (t : FileTree) :
    Grows P t ((do x; y : FileChange Unit).run t).2 := by
  rcases hrun : x.run t with ⟨f | _, t₁⟩
  · rw [run_bind_error hrun, ← congrArg Prod.snd hrun]
    exact hx t
  · rw [run_bind_ok hrun]
    have hfirst := hx t
    rw [hrun] at hfirst
    exact hfirst.trans (hy t₁)

theorem grows_provideNames (anchor : Anchor) (names : List String) (t : FileTree) :
    Grows (Path.Passes ⟨anchor, names.reverse⟩) t ((provideNames anchor names).run t).2 := by
  have hlast : ∀ (names : List String) (t : FileTree), Grows (Path.Passes ⟨anchor, names.reverse⟩) t
      ((provideDirectory ⟨anchor, names.reverse⟩).run t).2 := by
    intro names t
    refine (grows_provideDirectory _ t).imp fun place he => ?_
    exact ⟨_, List.prefix_refl _, he.symm⟩
  induction names generalizing t with
  | nil => exact hlast [] t
  | cons name above ih =>
    unfold provideNames
    rw [run_bind_ok (run_get t)]
    split
    · refine grows_bind (fun t => (ih t).imp ?_) (hlast (name :: above)) t
      rintro place ⟨names, hnames, he⟩
      refine ⟨names, ?_, he⟩
      rw [List.reverse_cons]
      exact hnames.trans (List.prefix_append _ _)
    · exact hlast (name :: above) t

theorem grows_provideDirectories (p : Path) (t : FileTree) :
    Grows p.Passes t ((provideDirectories p).run t).2 := by
  have h := grows_provideNames p.anchor p.parts.reverse t
  rw [List.reverse_reverse] at h
  exact h

/-! ## Files -/

/-- Writes texts to files, one after the other. -/
def writeTexts (texts : List (Path × String)) : FileChange Unit :=
  texts.forM fun text => writeText text.1 text.2

/-- What there is in `t'` after the texts were written to `t`. -/
structure Written (texts : List (Path × String)) (t t' : FileTree) : Prop where
  toExtends : Extends t t'
  /-- Each file can be read, and holds a text that was written to its spot. -/
  reads : ∀ text ∈ texts, ∃ last ∈ texts, last.1.spot = text.1.spot ∧
    t'.read text.1 = .ok last.2.toUTF8
  /-- Elsewhere only directories come up, on the way to the files. -/
  frame : ∀ place, (∀ text ∈ texts, text.1.spot ≠ place) →
    GrowsAt t t' place (∃ text ∈ texts, text.1.parent.Passes place)

theorem written_writeText {text : String} (h : (writeText p text).run t = (.ok (), t')) :
    Written [(p, text)] t t' := by
  obtain ⟨⟨⟩, t₁, hdirectories, hrun⟩ := run_bind_eq_ok h
  have hgrows : Grows p.parent.Passes t t₁ := by
    have hparent := grows_provideDirectories p.parent t
    rwa [hdirectories] at hparent
  obtain ⟨hroot, hplace, hfree, rfl⟩ := FileTree.write_eq_ok (run_atOnce hrun)
  have hget := fun place => FileTree.get?_insert t₁ p.spot place (.file text.toUTF8) hroot
  have hextends : Extends t₁ (t₁.insert p.spot (.file text.toUTF8)) := by
    intro place hd
    rw [hget, if_neg]
    · exact hd
    · rintro rfl
      exact hfree hd
  refine ⟨hgrows.toExtends.trans hextends, ?_, ?_⟩
  · intro other hother
    obtain rfl := List.mem_singleton.mp hother
    refine ⟨_, hother, rfl, FileTree.read_eq_ok_iff.mpr ⟨hextends.place hplace, ?_⟩⟩
    rw [hget, if_pos rfl]
  · intro place hne
    have hsame : (t₁.insert p.spot (.file text.toUTF8)).get? place = t₁.get? place := by
      rw [hget, if_neg (hne _ (List.mem_singleton_self _))]
    unfold GrowsAt
    rw [hsame]
    exact (hgrows place).imp fun hp => ⟨_, List.mem_singleton_self _, hp⟩

namespace Written

variable {texts more : List (Path × String)}

theorem nil (t : FileTree) : Written [] t t where
  toExtends := .refl t
  reads := by simp
  frame place _ := .refl t place _

/-- Texts are written after other texts.  A file holds one of the latter if they were written to its
spot as well. -/
theorem append {t₁ : FileTree} (h : Written texts t t₁) (h' : Written more t₁ t') :
    Written (texts ++ more) t t' := by
  refine ⟨h.toExtends.trans h'.toExtends, ?_, ?_⟩
  · intro text hmem
    rcases List.mem_append.mp hmem with hfirst | hsecond
    · obtain ⟨last, hlast, hspot, hread⟩ := h.reads text hfirst
      obtain ⟨hplace, hfile⟩ := FileTree.read_eq_ok_iff.mp hread
      have hplace' := h'.toExtends.place hplace
      by_cases hagain : ∃ other ∈ more, other.1.spot = text.1.spot
      · obtain ⟨other, hother, hsame⟩ := hagain
        obtain ⟨last, hlast, hspot, hread⟩ := h'.reads other hother
        have hfile := (FileTree.read_eq_ok_iff.mp hread).2
        refine ⟨last, List.mem_append_right _ hlast, hspot.trans hsame, ?_⟩
        exact FileTree.read_eq_ok_iff.mpr ⟨hplace', hsame ▸ hfile⟩
      · have hframe := h'.frame text.1.spot fun other hother hsame => hagain ⟨other, hother, hsame⟩
        refine ⟨last, List.mem_append_left _ hlast, hspot, ?_⟩
        exact FileTree.read_eq_ok_iff.mpr ⟨hplace', hframe.keeps hfile⟩
    · obtain ⟨last, hlast, hspot, hread⟩ := h'.reads text hsecond
      exact ⟨last, List.mem_append_right _ hlast, hspot, hread⟩
  · intro place hne
    have hfirst := h.frame place fun text hmem => hne text (List.mem_append_left _ hmem)
    have hsecond := h'.frame place fun text hmem => hne text (List.mem_append_right _ hmem)
    refine (hfirst.imp ?_).trans (hsecond.imp ?_)
    · rintro ⟨text, hmem, hp⟩
      exact ⟨text, List.mem_append_left _ hmem, hp⟩
    · rintro ⟨text, hmem, hp⟩
      exact ⟨text, List.mem_append_right _ hmem, hp⟩

/-- Other files hold what they held. -/
theorem read_eq {octets : ByteArray} (h : Written texts t t') (hread : t.read p = .ok octets)
    (hne : ∀ text ∈ texts, text.1.spot ≠ p.spot) : t'.read p = .ok octets := by
  obtain ⟨hplace, hfile⟩ := FileTree.read_eq_ok_iff.mp hread
  exact FileTree.read_eq_ok_iff.mpr ⟨h.toExtends.place hplace, (h.frame p.spot hne).keeps hfile⟩

end Written

theorem written_writeTexts {texts : List (Path × String)}
    (h : (writeTexts texts).run t = (.ok (), t')) : Written texts t t' := by
  induction texts generalizing t with
  | nil =>
    obtain rfl : t = t' := congrArg Prod.snd h
    exact .nil t
  | cons text texts ih =>
    obtain ⟨⟨⟩, t₁, hfirst, hrest⟩ := run_bind_eq_ok h
    exact (written_writeText hfirst).append (ih hrest)

end FileChange

end Componentry
