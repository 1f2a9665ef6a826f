import Componentry.Snippet

/-!
# Interpolation

A text may hold spans `{…}`: an opening brace, at least one character other than a closing brace,
and a closing brace.  Spans are found from left to right and do not nest.  Each holds a snippet; a
text with spans becomes a template, a text without any stays a text.
-/

namespace Componentry.Component

open Script (Node)

/-- The span that a text starts with: what is in it, and what follows. -/
def spanAt? : List Char → Option (List Char × List Char)
  | '{' :: rest =>
    match rest.takeWhile (· != '}'), rest.dropWhile (· != '}') with
    | d :: inner, _ :: after => some (d :: inner, after)
    | _, _ => none
  | _ => none

/-- The first span of a text: what stands before it, what is in it, and what follows. -/
def nextSpan? : List Char → Option (List Char × List Char × List Char)
  | [] => none
  | c :: rest =>
    match spanAt? (c :: rest) with
    | some (inner, after) => some ([], inner, after)
    | none => (nextSpan? rest).map fun (before, inner, after) => (c :: before, inner, after)

/-- What follows a span is shorter than the text. -/
theorem length_spanAt? {cs inner after : List Char} (h : spanAt? cs = some (inner, after)) :
    after.length < cs.length := by
  unfold spanAt? at h
  split at h
  · next rest =>
    split at h
    · next hd =>
      simp only [Option.some.injEq, Prod.mk.injEq] at h
      obtain ⟨-, rfl⟩ := h
      have := (List.dropWhile_sublist (· != '}') (l := rest)).length_le
      rw [hd] at this
      simp only [List.length_cons] at this ⊢
      omega
    · simp at h
  · simp at h

/-- What follows the first span is shorter than the text. -/
theorem length_nextSpan? {cs before inner after : List Char}
    (h : nextSpan? cs = some (before, inner, after)) : after.length < cs.length := by
  induction cs generalizing before inner after with
  | nil => simp [nextSpan?] at h
  | cons c rest ih =>
    simp only [nextSpan?] at h
    split at h
    · next inner' after' hs =>
      simp only [Option.some.injEq, Prod.mk.injEq] at h
      obtain ⟨-, -, rfl⟩ := h
      exact length_spanAt? hs
    · simp only [Option.map_eq_some_iff, Prod.mk.injEq, Prod.exists] at h
      obtain ⟨b, i, a, ha, -, -, rfl⟩ := h
      have := ih ha
      simp only [List.length_cons]
      omega

/-- The spans of a text, each with what stands between it and the one before, and what follows the
last span. -/
def spans (cs : List Char) : List (List Char × List Char) × List Char :=
  match _h : nextSpan? cs with
  | none => ([], cs)
  | some (before, inner, after) =>
    let (rest, tail) := spans after
    ((before, inner) :: rest, tail)
termination_by cs.length
decreasing_by exact length_nextSpan? _h

/-- The node of a text: a template if the text has spans. -/
def interpolate (text : String) : Except Fault Node :=
  match spans text.toList with
  | ([], _) => .ok (.text text)
  | (parts, tail) => do
    let expressions ← parts.mapM fun (_, inner) => Snippet.ofChars inner
    let segments := parts.map fun (before, _) => Node.segment (String.ofList before) false
    return .template (segments ++ [.segment (String.ofList tail) true]) expressions

end Componentry.Component
