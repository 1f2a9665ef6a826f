import Componentry.Proofs.Component.Descent
import Componentry.Proofs.Component.Result
import Componentry.Proofs.Component.Span
import Componentry.Proofs.Snippet

/-!
# Values without long integers

Integers are printed and read in decimal only up to a bound on their digits.  `Short g v` says that
no integer and no run of digits inside a value is beyond that bound.

Keys, texts and code of short values become printable nodes (`Short.gives_propertyKey`,
`gives_interpolate`, `gives_rawAttribute`), and what the view of a short value shows is short again
(`Short.view`).
-/

namespace Componentry.Component

open Script (Node Printable fewDigits)
open Snippet (ShortRuns)

/-- The scalars without long integers and long runs of digits. -/
def IsShort : Scalar → Prop
  | .int n => fewDigits n
  | .text s => ShortRuns s.toList
  | .code c => ShortRuns c.text.toList
  | _ => True

/-- No integer and no run of digits in a value is too long. -/
def Short (g : Graph) (v : Value) : Prop :=
  g.All IsShort v

variable {g : Graph} {v : Value}

theorem short_null (g : Graph) : Short g .null :=
  Graph.All.scalar trivial

theorem hasText_of_isShort {s : Scalar} (h : IsShort s) : s.HasText := by
  cases s with
  | int n => exact succeeds_iff.mp (Script.succeeds_integerText h)
  | _ => exact ⟨_, rfl⟩

theorem Short.succeeds_display (h : Short g v) : Succeeds (g.display v) :=
  succeeds_iff.mpr (Graph.All.exists_display fun s hs => hasText_of_isShort (h s hs))

theorem Short.gives_propertyKey (h : Short g v) :
    Gives (propertyKey g v) fun key =>
      ∃ (text : String) (isName : Bool), key = if isName then .name text else .text text :=
  Gives.bind h.succeeds_display fun text _ => gives_pure ⟨text, Text.isIdentifierName text, rfl⟩

/-- The values of a map's entries. -/
theorem short_entry {entries : List (Value × Value)} (h : ∀ e ∈ entries, Short g e.2)
    (key : String) : Short g (entry entries key) := by
  unfold entry
  cases hl : entries.lookup (.text key) with
  | none => exact short_null g
  | some w =>
    obtain ⟨before, after, rfl, -⟩ := List.lookup_eq_some_iff.mp hl
    exact h (.text key, w) (by simp)

/-! ## Texts -/

theorem infix_of_mem_spans {cs : List Char} {part : List Char × List Char}
    (h : part ∈ (spans cs).1) : part.2 <:+: cs := by
  fun_induction spans cs with
  | case1 => cases h
  | case2 cs before inner after hn rest tail hs ih =>
    obtain ⟨hparts, -, -⟩ := eq_of_nextSpan? hn
    rw [hs] at ih
    rcases List.mem_cons.mp h with rfl | hrest
    · exact ⟨before ++ ['{'], '}' :: after, by rw [hparts]; simp⟩
    · have hafter : after <:+: cs := ⟨before ++ '{' :: (inner ++ ['}']), [], by rw [hparts]; simp⟩
      exact (ih hrest).trans hafter

/-- A text becomes a printable node. -/
theorem gives_interpolate {s : String} (h : ShortRuns s.toList) :
    Gives (interpolate s) Printable := by
  unfold interpolate
  split
  · exact gives_ok (.text s)
  · next parts tail _ hs =>
    have hparts : ∀ part ∈ parts, Gives (Snippet.ofChars part.2) Printable := by
      intro part hp
      have hmem : part ∈ (spans s.toList).1 := by
        rw [hs]
        exact hp
      exact Snippet.gives_ofChars (h.of_isInfix (infix_of_mem_spans hmem))
    refine (gives_mapM hparts).bind fun expressions he => gives_pure ?_
    have htemplate := Printable.template
      (parts.map (fun part => (String.ofList part.1, false)) ++ [(String.ofList tail, true)]) he
    simpa [Function.comp_def] using htemplate

theorem gives_rawAttribute {code : String} (h : ShortRuns code.toList) :
    Gives (rawAttribute code).result Printable := by
  have htrim : ShortRuns (Text.trimmed code).toList := by
    rw [Text.trimmed, String.toList_ofList]
    exact h.of_isInfix (Snippet.trim_isInfix _)
  obtain ⟨node, hnode, hp⟩ := Snippet.gives_ofChars htrim
  have hparse : Snippet.parse (Text.trimmed code) = .ok node := hnode
  rw [rawAttribute, hparse]
  exact gives_ok hp

/-! ## Views of short values -/

/-- What a view shows is short. -/
def ShortView (g : Graph) : View → Prop
  | .number (.int n) => fewDigits n
  | .text s => ShortRuns s.toList
  | .code c => ShortRuns c.text.toList
  | .sequence _ items => ∀ item ∈ items, Short g item
  | .mapping _ entries => ∀ e ∈ entries, Short g e.1 ∧ Short g e.2
  | _ => True

theorem Short.items {items : List Value} {a : Address} (h : Short g (.container a))
    (hg : g.get? a = some (.list items) ∨ g.get? a = some (.tuple items)) :
    ∀ item ∈ items, Short g item := by
  intro item hi
  rcases hg with hg | hg
  · exact h.item hg hi
  · exact h.item hg hi

theorem Short.entries {entries : List (Value × Value)} {a : Address} (h : Short g (.container a))
    (hg : g.get? a = some (.map entries)) : ∀ e ∈ entries, Short g e.1 ∧ Short g e.2 :=
  fun _ he => ⟨h.item hg (Graph.mem_parts_fst he), h.item hg (Graph.mem_parts_snd he)⟩

/-- Code in a map is one of the texts in it. -/
theorem exists_text_of_codeOfEntries? {entries : List (Value × Value)} {c : Code}
    (h : g.codeOfEntries? entries = .ok (some c)) : ∃ e ∈ entries, e.2 = .text c.text := by
  unfold Graph.codeOfEntries? at h
  split at h
  · next k₁ v₁ k₂ v₂ =>
    -- the code is under the one key or the other
    dsimp only at h
    split at h
    · next kind code hparts =>
      cases hk : g.codeKind? kind with
      | error e => rw [hk] at h; cases h
      | ok k =>
        rw [hk] at h
        cases k with
        | none => cases h
        | some k =>
          cases h
          split at hparts
          · cases hparts
            exact ⟨(k₂, .text code), by simp, rfl⟩
          · split at hparts
            · cases hparts
              exact ⟨(k₁, .text code), by simp, rfl⟩
            · cases hparts
    · cases h
  · cases h

theorem Short.code {c : Code} (h : Short g v) (hc : g.code? v = .ok (some c)) :
    ShortRuns c.text.toList := by
  unfold Graph.code? at hc
  split at hc
  · cases hc
    exact h.of_scalar
  · cases hc
  · split at hc
    · next hg =>
      obtain ⟨e, he, ht⟩ := exists_text_of_codeOfEntries? hc
      have hs := (h.entries hg e he).2
      rw [ht] at hs
      exact hs.of_scalar
    · cases hc

theorem Short.view {view : View} (h : Short g v) (hv : g.view v = .ok view) : ShortView g view := by
  have hshows := shows_of_view hv
  cases view with
  | sequence a items =>
    obtain ⟨rfl, hg⟩ := hshows
    exact h.items hg
  | mapping a entries =>
    obtain ⟨rfl, hg⟩ := hshows
    exact h.entries hg
  | code c => exact h.code hshows
  | text s =>
    cases hshows
    exact h.of_scalar
  | number n =>
    cases n with
    | int n =>
      cases hshows
      exact h.of_scalar
    | float x => trivial
  | _ => trivial

end Componentry.Component
