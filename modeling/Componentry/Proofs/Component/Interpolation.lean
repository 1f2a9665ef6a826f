import Componentry.Proofs.Component.Span
import Componentry.Proofs.Outcome
import Componentry.Proofs.Script.Shape

/-!
# How a text is split at its spans

A text with spans becomes a template: what stands outside the spans goes into its segments, what
stands inside into its expressions.  `IsSplit` says which splits of a text are meant, without a word
about how they are found: nothing is lost, each span holds something and no closing brace, and an
opening brace outside the spans is idle, which means that no span could start there.

**Main statement.** Every text has one split, and its node is made of that one
(`interpolate_of_split`).

The split is unique because the first span is the first opening brace that is not idle
(`nextSpan?_eq_some_iff`); what follows it is a text with a split of its own.
-/

namespace Componentry.Component

open Script (Node segments)

/-! ## Splits -/

/-- The text made up of spans, each behind what stands before it, and of what follows the last one. -/
def assembled : List (List Char × List Char) → List Char → List Char
  | [], tail => tail
  | (before, inner) :: parts, tail => before ++ '{' :: (inner ++ '}' :: assembled parts tail)

/-- What stands outside the spans, piece by piece, each with all of the text that comes later. -/
def outside : List (List Char × List Char) → List Char → List (List Char × List Char)
  | [], tail => [(tail, [])]
  | (before, inner) :: parts, tail =>
    (before, '{' :: (inner ++ '}' :: assembled parts tail)) :: outside parts tail

/-- Each opening brace in a piece of text is followed by a closing one at once, or by none at all. -/
def Idle (piece later : List Char) : Prop :=
  ∀ u v, piece = u ++ '{' :: v → (v ++ later).head? = some '}' ∨ '}' ∉ v ++ later

/-- A text is split into spans, with what stands before each of them, and a tail. -/
structure IsSplit (cs : List Char) (parts : List (List Char × List Char)) (tail : List Char) :
    Prop where
  whole : cs = assembled parts tail
  inner_ne_nil : ∀ p ∈ parts, p.2 ≠ []
  not_close : ∀ p ∈ parts, '}' ∉ p.2
  idle : ∀ q ∈ outside parts tail, Idle q.1 q.2

theorem isSplit_nil_iff {cs tail : List Char} : IsSplit cs [] tail ↔ cs = tail ∧ Idle tail [] := by
  constructor
  · intro h
    exact ⟨h.whole, h.idle _ List.mem_cons_self⟩
  · rintro ⟨rfl, h⟩
    exact ⟨rfl, List.forall_mem_nil _, List.forall_mem_nil _, List.forall_mem_singleton.mpr h⟩

/-- The first span of a split, and the split of what follows it. -/
theorem isSplit_cons_iff {cs before inner tail : List Char} {parts : List (List Char × List Char)} :
    IsSplit cs ((before, inner) :: parts) tail ↔ ∃ after, IsSpan cs before inner after ∧
      Idle before ('{' :: (inner ++ '}' :: after)) ∧ IsSplit after parts tail := by
  constructor
  · intro h
    obtain ⟨hinner, hinners⟩ := List.forall_mem_cons.mp h.inner_ne_nil
    obtain ⟨hclose, hcloses⟩ := List.forall_mem_cons.mp h.not_close
    obtain ⟨hidle, hidles⟩ := List.forall_mem_cons.mp h.idle
    exact ⟨assembled parts tail, ⟨h.whole, hinner, hclose⟩, hidle, rfl, hinners, hcloses, hidles⟩
  · rintro ⟨after, hspan, hidle, rfl, hinners, hcloses, hidles⟩
    exact ⟨hspan.parts, List.forall_mem_cons.mpr ⟨hspan.inner_ne_nil, hinners⟩,
      List.forall_mem_cons.mpr ⟨hspan.not_close, hcloses⟩, List.forall_mem_cons.mpr ⟨hidle, hidles⟩⟩

/-! ## Spans that are found -/

theorem spanAt?_of_ne {c : Char} {cs : List Char} (h : c ≠ '{') : spanAt? (c :: cs) = none := by
  unfold spanAt?
  split
  · next he =>
    cases he
    exact absurd rfl h
  · rfl

/-- No span starts at an opening brace just when the brace is idle. -/
theorem spanAt?_eq_none_iff {cs : List Char} :
    spanAt? ('{' :: cs) = none ↔ cs.head? = some '}' ∨ '}' ∉ cs := by
  constructor
  · intro h
    by_cases hmem : '}' ∈ cs
    · obtain ⟨inner, after, rfl, hc⟩ := List.eq_append_cons_of_mem hmem
      by_cases hi : inner = []
      · left
        rw [hi]
        rfl
      · rw [spanAt?_eq_some after hi hc] at h
        cases h
    · exact .inr hmem
  · intro h
    cases hs : spanAt? ('{' :: cs) with
    | none => rfl
    | some span =>
      obtain ⟨hparts, hi, hc⟩ := eq_of_spanAt? hs
      rw [List.nil_append] at hparts
      obtain ⟨d, inner, hd⟩ := List.exists_cons_of_ne_nil hi
      rw [List.cons_inj_right, hd] at hparts
      rcases h with h | h
      · rw [hparts] at h
        cases h
        exact absurd (hd ▸ List.mem_cons_self) hc
      · exact absurd (hparts ▸ by simp) h

theorem Idle.tail {c : Char} {piece later : List Char} (h : Idle (c :: piece) later) :
    Idle piece later :=
  fun u v hp => h (c :: u) v (by rw [hp, List.cons_append])

/-- No span starts at the first character of a text that is idle there. -/
theorem Idle.spanAt?_eq_none {c : Char} {piece later : List Char} (h : Idle (c :: piece) later) :
    spanAt? (c :: (piece ++ later)) = none := by
  by_cases hc : c = '{'
  · rw [hc, spanAt?_eq_none_iff]
    exact h [] piece (by rw [hc, List.nil_append])
  · exact spanAt?_of_ne hc

theorem idle_cons {c : Char} {piece later : List Char}
    (hs : spanAt? (c :: (piece ++ later)) = none) (h : Idle piece later) :
    Idle (c :: piece) later := by
  intro u v hp
  cases u with
  | nil =>
    cases hp
    exact spanAt?_eq_none_iff.mp hs
  | cons d u =>
    cases hp
    exact h u v rfl

/-- **The first span** is the one with nothing but idle braces before it. -/
theorem nextSpan?_eq_some_iff {cs before inner after : List Char} :
    nextSpan? cs = some (before, inner, after) ↔
      IsSpan cs before inner after ∧ Idle before ('{' :: (inner ++ '}' :: after)) := by
  constructor
  · intro h
    have hspan := eq_of_nextSpan? h
    refine ⟨hspan, ?_⟩
    -- no span is found at any of the characters that the search goes past
    induction cs generalizing before with
    | nil => cases h
    | cons c rest ih =>
      rw [nextSpan?] at h
      split at h
      · cases h
        intro u v hp
        cases u <;> cases hp
      · next hs =>
        obtain ⟨⟨before', inner', after'⟩, hn, he⟩ := Option.map_eq_some_iff.mp h
        cases he
        have hrest := eq_of_nextSpan? hn
        refine idle_cons ?_ (ih hn hrest)
        rwa [← hrest.parts]
  · rintro ⟨⟨rfl, hi, hc⟩, hidle⟩
    induction before with
    | nil => rw [List.nil_append, nextSpan?, spanAt?_eq_some after hi hc]
    | cons c before ih =>
      rw [List.cons_append, nextSpan?, hidle.spanAt?_eq_none, ih hidle.tail]
      rfl

/-- A text has no span just when its opening braces are idle. -/
theorem idle_nil_iff {cs : List Char} : Idle cs [] ↔ ¬ HasSpan cs := by
  constructor
  · rintro h ⟨before, inner, after, rfl, hi, hc⟩
    have hbrace := h before (inner ++ '}' :: after) rfl
    rw [List.append_nil, ← spanAt?_eq_none_iff, spanAt?_eq_some after hi hc] at hbrace
    cases hbrace
  · intro h u v hp
    rw [List.append_nil, ← spanAt?_eq_none_iff]
    cases hs : spanAt? ('{' :: v) with
    | none => rfl
    | some span =>
      obtain ⟨hparts, hi, hc⟩ := eq_of_spanAt? hs
      exact absurd ⟨u, span.1, span.2, by rw [hp, hparts, List.nil_append], hi, hc⟩ h

/-- **The spans of a text are its only split.** -/
theorem isSplit_iff {cs : List Char} {parts : List (List Char × List Char)} {tail : List Char} :
    IsSplit cs parts tail ↔ spans cs = (parts, tail) := by
  fun_induction spans cs generalizing parts tail with
  | case1 cs hn =>
    have hspan : ¬ HasSpan cs := by
      rw [hasSpan_iff, hn]
      decide
    cases parts with
    | nil =>
      rw [isSplit_nil_iff]
      constructor
      · rintro ⟨rfl, -⟩
        rfl
      · intro h
        cases h
        exact ⟨rfl, idle_nil_iff.mpr hspan⟩
    | cons p parts =>
      rw [isSplit_cons_iff]
      constructor
      · rintro ⟨after, h, -⟩
        exact absurd ⟨_, _, _, h⟩ hspan
      · intro h
        cases h
  | case2 cs before inner after hn rest last hrest ih =>
    have hspan := nextSpan?_eq_some_iff.mp hn
    rw [hrest] at ih
    cases parts with
    | nil =>
      rw [isSplit_nil_iff]
      constructor
      · rintro ⟨rfl, h⟩
        exact absurd ⟨_, _, _, hspan.1⟩ (idle_nil_iff.mp h)
      · intro h
        cases h
    | cons p parts =>
      rw [isSplit_cons_iff]
      constructor
      · rintro ⟨after', h, hidle, hsplit⟩
        have hsame := hn.symm.trans (nextSpan?_eq_some_iff.mpr ⟨h, hidle⟩)
        cases hsame
        cases ih.mp hsplit
        rfl
      · intro h
        cases h
        exact ⟨after, hspan.1, hspan.2, ih.mpr rfl⟩

/-! ## The node of a text -/

/-- The split of a text without spans. -/
theorem IsSplit.eq_nil_iff {cs : List Char} {parts : List (List Char × List Char)}
    {tail : List Char} (h : IsSplit cs parts tail) : parts = [] ↔ ¬ HasSpan cs := by
  constructor
  · rintro rfl
    obtain ⟨rfl, hidle⟩ := isSplit_nil_iff.mp h
    exact idle_nil_iff.mp hidle
  · intro hspan
    have hnone := isSplit_iff.mp h
    rw [spans_of_not_hasSpan hspan] at hnone
    cases hnone
    rfl

/-- The node of a text with spans, if all of them hold snippets. -/
theorem interpolate_eq_ok_iff {text : String} {parts : List (List Char × List Char)}
    {tail : List Char} (h : IsSplit text.toList parts tail) (hne : parts ≠ []) {node : Node} :
    interpolate text = .ok node ↔ ∃ expressions,
      List.Forall₂ (fun p e => Snippet.parse (String.ofList p.2) = .ok e) parts expressions ∧
      node = .template (segments (parts.map fun p => String.ofList p.1) (String.ofList tail))
        expressions := by
  have hinterpolate : interpolate text = (do
      let expressions ← parts.mapM fun p => Snippet.parse (String.ofList p.2)
      return .template (segments (parts.map fun p => String.ofList p.1) (String.ofList tail))
        expressions) := by
    obtain ⟨p, parts, rfl⟩ := List.exists_cons_of_ne_nil hne
    rw [interpolate, isSplit_iff.mp h]
    simp only [Snippet.parse, String.toList_ofList, segments, List.map_map, Function.comp_def]
  rw [hinterpolate]
  constructor
  · intro hnode
    cases hm : parts.mapM fun p => Snippet.parse (String.ofList p.2) with
    | error fault =>
      rw [hm] at hnode
      cases hnode
    | ok expressions =>
      rw [hm] at hnode
      cases hnode
      exact ⟨expressions, mapM_eq_ok_iff.mp hm, rfl⟩
  · rintro ⟨expressions, hm, rfl⟩
    rw [mapM_eq_ok_iff.mpr hm]
    rfl

/-- **A text is split in exactly one way, and nothing of it is lost.** There is one split of the text.
Without a span it has no parts, and the node is the text.  Otherwise the node, if there is one, is the
template with the pieces outside the spans for segments, of which only the last is marked as the last,
and with the nodes of the spans for expressions. -/
theorem interpolate_of_split (text : String) : ∃ parts tail,
    IsSplit text.toList parts tail ∧
    (∀ parts' tail', IsSplit text.toList parts' tail' → parts' = parts ∧ tail' = tail) ∧
    (¬ HasSpan text.toList → interpolate text = .ok (.text text)) ∧
    (HasSpan text.toList → parts ≠ [] ∧ ∀ node, interpolate text = .ok node ↔
      ∃ expressions,
        List.Forall₂ (fun p e => Snippet.parse (String.ofList p.2) = .ok e) parts expressions ∧
        node = .template (segments (parts.map fun p => String.ofList p.1) (String.ofList tail))
          expressions) := by
  have hsplit : IsSplit text.toList (spans text.toList).1 (spans text.toList).2 := isSplit_iff.mpr rfl
  refine ⟨_, _, hsplit, fun parts' tail' h => ?_, interpolate_of_not_hasSpan, fun hspan => ?_⟩
  · have hsame := isSplit_iff.mp h
    exact ⟨congrArg Prod.fst hsame.symm, congrArg Prod.snd hsame.symm⟩
  · have hne := mt hsplit.eq_nil_iff.mp (not_not_intro hspan)
    exact ⟨hne, fun node => interpolate_eq_ok_iff hsplit hne⟩

/-- Braces with nothing in them are no span, and the second of two opening braces is part of one. -/
example : spans "\x7b\x7d\x7b\x7ba\x7d\x7b".toList =
    ([("\x7b\x7d".toList, "\x7ba".toList)], "\x7b".toList) := by
  with_unfolding_all rfl

end Componentry.Component
