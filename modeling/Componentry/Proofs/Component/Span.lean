import Componentry.Component.Interpolation
import Mathlib.Data.List.TakeWhile

/-!
# Spans of a text

A text has a span when an opening brace, some characters other than a closing brace, and a closing
brace stand in it one after another.

**Main statements.** A span is found just when there is one (`hasSpan_iff`), so that a text without
spans stays a text (`interpolate_of_not_hasSpan`).
-/

namespace Componentry.Component

open Script (Node)

/-- The text is made up of what stands before a span, what is in it, and what follows. -/
structure IsSpan (cs before inner after : List Char) : Prop where
  parts : cs = before ++ '{' :: (inner ++ '}' :: after)
  inner_ne_nil : inner ≠ []
  not_close : '}' ∉ inner

/-- Whether a text has a span. -/
def HasSpan (cs : List Char) : Prop :=
  ∃ before inner after, IsSpan cs before inner after

theorem eq_of_spanAt? {cs inner after : List Char} (h : spanAt? cs = some (inner, after)) :
    IsSpan cs [] inner after := by
  unfold spanAt? at h
  split at h
  · next rest =>
    split at h
    · next d inner' c after' ht hd =>
      cases h
      have hc : c = '}' := by
        have := List.head?_dropWhile_not (· != '}') rest
        simpa [hd] using this
      refine ⟨?_, List.cons_ne_nil d inner', ?_⟩
      · rw [List.nil_append, ← hc, ← ht, ← hd, List.takeWhile_append_dropWhile]
      · intro hmem
        rw [← ht] at hmem
        simpa using List.mem_takeWhile_imp hmem
    · cases h
  · cases h

theorem eq_of_nextSpan? {cs before inner after : List Char}
    (h : nextSpan? cs = some (before, inner, after)) : IsSpan cs before inner after := by
  induction cs generalizing before with
  | nil => cases h
  | cons c rest ih =>
    rw [nextSpan?] at h
    split at h
    · next hs =>
      cases h
      exact eq_of_spanAt? hs
    · obtain ⟨⟨before', inner', after'⟩, hn, he⟩ := Option.map_eq_some_iff.mp h
      cases he
      obtain ⟨hp, hi, hc⟩ := ih hn
      exact ⟨by rw [hp, List.cons_append], hi, hc⟩

theorem spanAt?_eq_some {inner : List Char} (after : List Char) (hi : inner ≠ [])
    (hc : '}' ∉ inner) : spanAt? ('{' :: (inner ++ '}' :: after)) = some (inner, after) := by
  have hall : ∀ c ∈ inner, (c != '}') = true := by
    intro c hmem
    exact bne_iff_ne.mpr fun he => hc (he ▸ hmem)
  cases inner with
  | nil => exact absurd rfl hi
  | cons d inner =>
    rw [spanAt?, List.takeWhile_append_of_pos hall, List.dropWhile_append_of_pos hall]
    simp

/-- The text has a span just when one is found. -/
theorem hasSpan_iff {cs : List Char} : HasSpan cs ↔ (nextSpan? cs).isSome = true := by
  constructor
  · rintro ⟨before, inner, after, rfl, hi, hc⟩
    induction before with
    | nil =>
      rw [List.nil_append, nextSpan?, spanAt?_eq_some after hi hc]
      rfl
    | cons c before ih =>
      rw [List.cons_append, nextSpan?]
      split
      · rfl
      · rw [Option.isSome_map]
        exact ih
  · intro h
    obtain ⟨⟨before, inner, after⟩, hn⟩ := Option.isSome_iff_exists.mp h
    exact ⟨before, inner, after, eq_of_nextSpan? hn⟩

instance (cs : List Char) : Decidable (HasSpan cs) :=
  decidable_of_iff _ hasSpan_iff.symm

theorem spans_of_not_hasSpan {cs : List Char} (h : ¬ HasSpan cs) : spans cs = ([], cs) := by
  rw [spans]
  split
  · rfl
  · next hn => exact absurd ⟨_, _, _, eq_of_nextSpan? hn⟩ h

/-- A text without spans stays a text. -/
theorem interpolate_of_not_hasSpan {s : String} (h : ¬ HasSpan s.toList) :
    interpolate s = .ok (.text s) := by
  rw [interpolate, spans_of_not_hasSpan h]

end Componentry.Component
