import Componentry.Command.Perform
import Componentry.Proofs.Glob
import Componentry.Proofs.Path

/-!
# Where a build writes modules

A module lies under the output directory of a build as its document lies under the source directory,
or beside its document if there is no output directory (`Mirrors`, `exists_target`).

**Main statements.**

* No module is written over a document (`Mirrors.spot_ne`).
* Two modules are written to the same spot only if their documents are at the same spot
  (`KeepsApart.spot_eq`).  Where there is an output directory this is in doubt for documents that are
  found by a step up: two dots may take back a name of the one directory and not of the other.
-/

namespace Componentry.Command.Plan

open Componentry.Path (withoutDots withoutDots_concat withoutDots_append)

variable {plan : Plan} {files : FileTree} {sources : List Path} {p q target target' : Path}

/-- The directory under which modules are written. -/
def base (plan : Plan) : Path :=
  plan.out.getD plan.sourceRoot

/-- The target lies under one directory of the build as the document lies under the other. -/
def Mirrors (plan : Plan) (source target : Path) : Prop :=
  ∃ names stem,
    source = ⟨plan.sourceRoot.anchor, plan.sourceRoot.parts ++ names ++ [stem ++ documentSuffix]⟩ ∧
    target = ⟨plan.base.anchor, plan.base.parts ++ names ++ [stem ++ moduleSuffix plan.annotated]⟩

theorem sources_of_sorted {g : Glob}
    (hglob : Glob.ofText plan.workspace.settings.documents = .ok g)
    (hroot : files.isDirectory plan.sourceRoot = .ok true)
    (h : Glob.select files g.directoriesOnly g.steps plan.sourceRoot = .ok sources)
    (hsorted : sources.Pairwise fun p q => p.isUpTo q) : plan.sources files = .ok sources := by
  unfold Plan.sources Workspace.documentsIn
  rw [hglob]
  exact Glob.files_of_sorted hroot h hsorted

/-- Every document of a build has a target. -/
theorem exists_target (h : plan.sources files = .ok sources) (hp : p ∈ sources)
    (hs : p.suffix = documentSuffix) :
    ∃ target, plan.target p = .ok target ∧ plan.Mirrors p target := by
  obtain ⟨glob, -, _, hfiles, rfl⟩ := gives_bind_iff.mp ⟨_, h, rfl⟩
  obtain ⟨-, below, hne, rfl⟩ := Glob.exists_names_of_files hfiles hp
  obtain ⟨before, stem, hparts, houtput⟩ := Path.output_document hs plan.annotated
  obtain ⟨names, last, rfl⟩ : ∃ names last, below = names ++ [last] :=
    ⟨_, _, (List.dropLast_append_getLast hne).symm⟩
  obtain ⟨rfl, rfl⟩ : plan.sourceRoot.parts ++ names = before ∧ last = stem ++ documentSuffix := by
    have happend := (List.append_assoc _ _ _).trans hparts
    simpa using List.append_inj' happend rfl
  refine ⟨⟨plan.base.anchor,
    plan.base.parts ++ names ++ [stem ++ moduleSuffix plan.annotated]⟩, ?_, names, stem, ?_, rfl⟩
  · unfold target base
    rw [houtput]
    cases plan.out with
    | none => rfl
    | some out =>
      simp [bind, Except.bind, pure, Except.pure, Path.relativeTo?, Path.join, Path.isAbsolute]
  · rw [List.append_assoc]

/-! ## Spots of documents and of modules -/

theorem spot_suffixed (anchor : Anchor) (names : List String) (stem : String) {suffix : String}
    (h : 2 < suffix.length) :
    Path.spot ⟨anchor, names ++ [stem ++ suffix]⟩ = withoutDots names ++ [stem ++ suffix] := by
  have hname : ¬ (stem ++ suffix == "..") = true := by
    intro he
    have hlength := congrArg String.length (beq_iff_eq.mp he)
    rw [String.length_append] at hlength
    have hdots : "..".length = 2 := rfl
    omega
  rw [Path.spot, withoutDots_concat, if_neg hname]

theorem length_moduleSuffix (annotated : Bool) : 2 < (moduleSuffix annotated).length := by
  cases annotated <;> decide

/-- **No module is written over a document.** -/
theorem Mirrors.spot_ne (h : plan.Mirrors p target) (h' : plan.Mirrors q target') :
    target.spot ≠ q.spot := by
  obtain ⟨names, stem, -, rfl⟩ := h
  obtain ⟨names', stem', rfl, -⟩ := h'
  rw [spot_suffixed _ _ _ (length_moduleSuffix _), spot_suffixed _ _ _ (by decide)]
  intro he
  have hlast := congrArg String.toList (List.singleton_inj.mp (List.append_inj' he rfl).2)
  rw [String.toList_append, String.toList_append] at hlast
  cases hannotated : plan.annotated <;> rw [hannotated] at hlast <;>
    exact absurd (List.append_inj' hlast rfl).2 (by decide)

/-- The document is found by a step up from the source directory or from below it. -/
def StepsUp (plan : Plan) (p : Path) : Prop :=
  ".." ∈ p.parts.drop plan.sourceRoot.parts.length

instance (plan : Plan) (p : Path) : Decidable (plan.StepsUp p) :=
  inferInstanceAs (Decidable (".." ∈ _))

theorem not_mem_of_not_stepsUp {anchor : Anchor} {names more : List String}
    (h : ¬ plan.StepsUp ⟨anchor, plan.sourceRoot.parts ++ names ++ more⟩) : ".." ∉ names := by
  intro hmem
  refine h ?_
  rw [StepsUp, List.append_assoc, List.drop_left]
  exact List.mem_append_left _ hmem

theorem Mirrors.spot_eq (h : plan.Mirrors p target) (h' : plan.Mirrors q target')
    (he : target.spot = target'.spot)
    (hdots : plan.out = none ∨ ¬ plan.StepsUp p ∧ ¬ plan.StepsUp q) : p.spot = q.spot := by
  obtain ⟨names, stem, rfl, rfl⟩ := h
  obtain ⟨names', stem', rfl, rfl⟩ := h'
  rw [spot_suffixed _ _ _ (length_moduleSuffix _),
    spot_suffixed _ _ _ (length_moduleSuffix _)] at he
  obtain ⟨hnames, hlast⟩ := List.append_inj' he rfl
  obtain rfl : stem = stem' := by
    have hstems := congrArg String.toList (List.singleton_inj.mp hlast)
    rw [String.toList_append, String.toList_append] at hstems
    exact String.toList_inj.mp (List.append_cancel_right hstems)
  rw [spot_suffixed _ _ _ (by decide), spot_suffixed _ _ _ (by decide)]
  rcases hdots with hout | ⟨hp, hq⟩
  · have hbase : plan.base = plan.sourceRoot := by rw [base, hout, Option.getD_none]
    rw [hbase] at hnames
    rw [hnames]
  · rw [withoutDots_append (not_mem_of_not_stepsUp hp),
      withoutDots_append (not_mem_of_not_stepsUp hq)] at hnames
    rw [List.append_cancel_left hnames]

/-- Where there is an output directory and documents are found by steps up, no two documents at
different spots have their modules at the same spot. -/
def KeepsApart (plan : Plan) (sources : List Path) : Prop :=
  plan.out ≠ none → ∀ p ∈ sources, ∀ q ∈ sources, plan.StepsUp p ∨ plan.StepsUp q →
    ∀ target target', plan.target p = .ok target → plan.target q = .ok target' →
      target.spot = target'.spot → p.spot = q.spot

/-- **Modules at the same spot are those of documents at the same spot.** -/
theorem KeepsApart.spot_eq (h : plan.KeepsApart sources) (hp : p ∈ sources) (hq : q ∈ sources)
    (htarget : plan.target p = .ok target) (htarget' : plan.target q = .ok target')
    (hm : plan.Mirrors p target) (hm' : plan.Mirrors q target')
    (he : target.spot = target'.spot) : p.spot = q.spot := by
  by_cases hout : plan.out = none
  · exact hm.spot_eq hm' he (.inl hout)
  · by_cases hup : plan.StepsUp p ∨ plan.StepsUp q
    · exact h hout p hp q hq hup target target' htarget htarget' he
    · exact hm.spot_eq hm' he (.inr (not_or.mp hup))

end Componentry.Command.Plan
