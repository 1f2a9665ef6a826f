import Componentry.Path
import Mathlib.Data.List.Basic
import Mathlib.Data.List.Induction

/-!
# Where paths lead

The *spot* of a path is the place that it spells: its names from the root on, where every pair of dots
has taken back the name before it.  Names without pairs of dots are put behind a spot as they are
(`withoutDots_append`).

**Main statement.** The module for a document lies beside it, under the same stem with the suffix of
modules (`output_document`).
-/

namespace Componentry.Path

/-! ## Spots -/

/-- The place that a path spells. -/
def spot (p : Path) : List String :=
  withoutDots p.parts

/-- The path leads through the place, or to it. -/
def Passes (p : Path) (place : List String) : Prop :=
  ∃ names, names <+: p.parts ∧ withoutDots names = place

theorem withoutDots_concat (names : List String) (name : String) :
    withoutDots (names ++ [name]) =
      if name == ".." then (withoutDots names).dropLast else withoutDots names ++ [name] := by
  simp [withoutDots, List.foldl_append]

theorem withoutDots_append {names : List String} (h : ".." ∉ names) (before : List String) :
    withoutDots (before ++ names) = withoutDots before ++ names := by
  induction names using List.reverseRecOn with
  | nil => simp
  | append_singleton names name ih =>
    have hname : ¬ (name == "..") = true := by
      rintro he
      exact h (by simp [beq_iff_eq.mp he])
    have hnames : ".." ∉ names := fun hm => h (List.mem_append_left _ hm)
    rw [← List.append_assoc, withoutDots_concat, if_neg hname, ih hnames, List.append_assoc]

/-! ## Suffixes -/

/-- A name is its stem and its suffix. -/
theorem splitSuffix_append (name : List Char) :
    (splitSuffix name).1 ++ (splitSuffix name).2 = name := by
  have hname : (name.reverse.dropWhile (· != '.')).reverse ++
      (name.reverse.takeWhile (· != '.')).reverse = name := by
    rw [← List.reverse_append, List.takeWhile_append_dropWhile, List.reverse_reverse]
  have hdot := List.head?_dropWhile_not (· != '.') name.reverse
  unfold splitSuffix
  generalize name.reverse.takeWhile (· != '.') = tail at hname
  generalize name.reverse.dropWhile (· != '.') = rest at hname hdot
  dsimp only
  split
  · simp
  · next h =>
    cases rest with
    | nil => simp [← hname] at h
    | cons c stem =>
      obtain rfl : c = '.' := by simpa using hdot
      have hstem : name.length - tail.reverse.length - 1 = stem.reverse.length := by
        rw [← hname]
        simp only [List.length_append, List.length_reverse, List.length_cons]
        omega
      rw [hstem, ← hname, List.reverse_cons, List.append_assoc, List.take_left]
      rfl

/-- The name of a document is a stem with the suffix of documents. -/
theorem exists_stem {p : Path} (h : p.suffix = documentSuffix) :
    ∃ stem, p.name = stem ++ documentSuffix ∧ (splitSuffix p.name.toList).1 = stem.toList := by
  refine ⟨String.ofList (splitSuffix p.name.toList).1, ?_, by simp⟩
  have happend := splitSuffix_append p.name.toList
  rw [← h, suffix, ← String.ofList_append, happend, String.ofList_toList]

/-- **The module for a document lies beside it, under the same stem.** -/
theorem output_document {p : Path} (h : p.suffix = documentSuffix) (annotated : Bool) :
    ∃ names stem, p.parts = names ++ [stem ++ documentSuffix] ∧
      p.output annotated = .ok ⟨p.anchor, names ++ [stem ++ moduleSuffix annotated]⟩ := by
  obtain ⟨stem, hname, hstem⟩ := exists_stem h
  have hne : p.name ≠ "" := by
    rw [hname]
    intro he
    simpa [documentSuffix] using congrArg String.toList he
  have hparts : p.parts = p.parts.dropLast ++ [p.name] := by
    unfold name at hne ⊢
    cases hl : p.parts.getLast? with
    | none => simp [hl] at hne
    | some last => exact (List.dropLast_append_getLast? last hl).symm
  refine ⟨p.parts.dropLast, stem, hname ▸ hparts, ?_⟩
  simp [output, hne, h, withName, hstem]

end Componentry.Path
