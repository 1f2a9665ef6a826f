import Componentry.Component.View
import Componentry.Proofs.Outcome

/-!
# When a value cannot be viewed

A map with the two entries `type` and `code`, the second of them a text, is looked up among the sorts
of code by the first.  A list or a map cannot be looked up at all, and neither can a tuple with such
a value or a set in it.

**Main statement.** Looking at a value is a fault just when it is such a map
(`succeeds_view_iff`, `succeeds_code?_iff`).
-/

namespace Componentry

/-! ## Values that cannot be looked up -/

/-- The trees that cannot be looked up, as parts of a tuple. -/
inductive Tree.Unhashable : Tree → Prop
  | list (items : List Tree) : Unhashable (.list items)
  | set (items : List Tree) : Unhashable (.set items)
  | map (entries : List (Tree × Tree)) : Unhashable (.map entries)
  | again {kind : ContainerKind} (h : kind ≠ .tuple) : Unhashable (.again kind)
  | tuple {items : List Tree} {t : Tree} (ht : t ∈ items) (h : Unhashable t) :
    Unhashable (.tuple items)

namespace Tree

mutual

theorem isSome_unhashable? : ∀ t : Tree, t.unhashable?.isSome = true ↔ t.Unhashable
  | .scalar s => by
    rw [unhashable?]
    exact ⟨nofun, nofun⟩
  | .list items => by
    rw [unhashable?]
    exact ⟨fun _ => .list items, fun _ => rfl⟩
  | .set items => by
    rw [unhashable?]
    exact ⟨fun _ => .set items, fun _ => rfl⟩
  | .map entries => by
    rw [unhashable?]
    exact ⟨fun _ => .map entries, fun _ => rfl⟩
  | .tuple items => by
    rw [unhashable?, isSome_unhashablePart? items]
    constructor
    · rintro ⟨t, ht, h⟩
      exact .tuple ht h
    · rintro ⟨⟩
      next h ht => exact ⟨_, ht, h⟩
  | .again kind => by
    cases kind with
    | tuple =>
      rw [unhashable?]
      refine ⟨nofun, ?_⟩
      rintro ⟨⟩
      next h => exact absurd rfl h
    | _ =>
      rw [unhashable?]
      exact ⟨fun _ => .again (by decide), fun _ => rfl⟩

theorem isSome_unhashablePart? : ∀ items : List Tree,
    (unhashablePart? items).isSome = true ↔ ∃ t ∈ items, t.Unhashable
  | [] => by
    rw [unhashablePart?]
    exact ⟨nofun, nofun⟩
  | t :: items => by
    rw [unhashablePart?, Option.isSome_or, Bool.or_eq_true, isSome_unhashable? t,
      isSome_unhashablePart? items]
    simp

end

/-- The trees that cannot be looked up.  A set can, though not inside a tuple. -/
def NoLookup (t : Tree) : Prop :=
  t.Unhashable ∧ ∀ items, t ≠ .set items

end Tree

/-- A map with a code that is a text and a type that cannot be looked up. -/
def MistypedCode (g : Graph) (v : Value) : Prop :=
  ∃ a kind code, v = .container a ∧
    (g.get? a = some (.map [(.text "type", kind), (.text "code", .text code)]) ∨
      g.get? a = some (.map [(.text "code", .text code), (.text "type", kind)])) ∧
    (g.unfold kind).NoLookup

/-! ## Views -/

namespace Graph

variable {g : Graph}

theorem succeeds_codeKind?_iff {v : Value} :
    Succeeds (g.codeKind? v) ↔ ¬ (g.unfold v).NoLookup := by
  unfold codeKind?
  split
  · refine iff_of_true (succeeds_ok _) ?_
    rw [unfold, unfoldWithin]
    rintro ⟨hu, -⟩
    cases hu
  · split
    -- a set is looked up as if it were frozen
    · next hu =>
      rw [hu]
      exact iff_of_true (succeeds_ok _) fun h => h.2 _ rfl
    · next hset =>
      split
      · next hu =>
        have hun := (Tree.isSome_unhashable? (g.unfold v)).mp (by rw [hu]; rfl)
        exact iff_of_false (not_succeeds_error _) (not_not_intro ⟨hun, hset⟩)
      · next hu =>
        refine iff_of_true (succeeds_ok _) fun h => ?_
        have := (Tree.isSome_unhashable? (g.unfold v)).mpr h.1
        rw [hu] at this
        cases this

/-- The entries of a mistyped code. -/
def MistypedEntries (g : Graph) (entries : List (Value × Value)) : Prop :=
  ∃ kind code, (entries = [(.text "type", kind), (.text "code", .text code)] ∨
    entries = [(.text "code", .text code), (.text "type", kind)]) ∧ (g.unfold kind).NoLookup

/-- A type and a code that were found in a map. -/
theorem succeeds_parts_iff {kind value : Value} :
    Succeeds (match some (kind, value) with
      | some (kind, .scalar (.text code)) => do
        return (← g.codeKind? kind).map (Code.mk · code)
      | _ => .ok none) ↔
    ¬ ((∃ code, value = .text code) ∧ (g.unfold kind).NoLookup) := by
  split
  · next he =>
    cases he
    have hkind : Succeeds (g.codeKind? kind) ↔ ¬ (g.unfold kind).NoLookup := succeeds_codeKind?_iff
    constructor
    · intro h
      obtain ⟨k, hk, -⟩ := gives_bind_iff.mp h
      exact fun hm => hkind.mp ⟨k, hk, trivial⟩ hm.2
    · intro h
      exact (hkind.mpr fun hn => h ⟨⟨_, rfl⟩, hn⟩).bind fun _ => succeeds_pure _
  · next hne =>
    refine iff_of_true (succeeds_ok _) ?_
    rintro ⟨⟨code, rfl⟩, -⟩
    exact hne _ _ rfl

theorem succeeds_codeOfEntries?_iff {entries : List (Value × Value)} :
    Succeeds (g.codeOfEntries? entries) ↔ ¬ MistypedEntries g entries := by
  unfold codeOfEntries?
  split
  · next k₁ v₁ k₂ v₂ =>
    by_cases h₁ : k₁ = .text "type" ∧ k₂ = .text "code"
    · obtain ⟨rfl, rfl⟩ := h₁
      refine succeeds_parts_iff.trans (not_congr ?_)
      simp [MistypedEntries]
    · by_cases h₂ : k₁ = .text "code" ∧ k₂ = .text "type"
      · obtain ⟨rfl, rfl⟩ := h₂
        refine succeeds_parts_iff.trans (not_congr ?_)
        simp [MistypedEntries]
      · have hnone : (if k₁ == .text "type" && k₂ == .text "code" then some (v₁, v₂)
            else if k₁ == .text "code" && k₂ == .text "type" then some (v₂, v₁) else none) = none := by
          simp [h₁, h₂]
        dsimp only
        rw [hnone]
        refine iff_of_true (succeeds_ok _) ?_
        rintro ⟨kind, code, he | he, -⟩
        · cases he
          exact h₁ ⟨rfl, rfl⟩
        · cases he
          exact h₂ ⟨rfl, rfl⟩
  · next hne =>
    refine iff_of_true (succeeds_ok _) ?_
    rintro ⟨kind, code, rfl | rfl, -⟩
    · exact hne _ _ _ _ rfl
    · exact hne _ _ _ _ rfl

theorem mistypedCode_iff {a : Address} :
    MistypedCode g (.container a) ↔
      ∃ entries, g.get? a = some (.map entries) ∧ MistypedEntries g entries := by
  constructor
  · rintro ⟨a, kind, code, hv, hg | hg, hk⟩
    · cases hv
      exact ⟨_, hg, kind, code, .inl rfl, hk⟩
    · cases hv
      exact ⟨_, hg, kind, code, .inr rfl, hk⟩
  · rintro ⟨_, hg, kind, code, rfl | rfl, hk⟩
    · exact ⟨a, kind, code, rfl, .inl hg, hk⟩
    · exact ⟨a, kind, code, rfl, .inr hg, hk⟩

theorem not_mistypedCode_scalar (s : Scalar) : ¬ MistypedCode g (.scalar s) := by
  rintro ⟨a, kind, code, hv, -⟩
  cases hv

theorem not_mistypedCode_of_get? {a : Address} {o : Option Container} (hg : g.get? a = o)
    (h : ∀ entries, o ≠ some (.map entries)) : ¬ MistypedCode g (.container a) := by
  intro hm
  obtain ⟨entries, he, -⟩ := mistypedCode_iff.mp hm
  exact h entries (hg.symm.trans he)

theorem succeeds_code?_iff {v : Value} : Succeeds (g.code? v) ↔ ¬ MistypedCode g v := by
  unfold code?
  split
  · exact iff_of_true (succeeds_ok _) (not_mistypedCode_scalar _)
  · exact iff_of_true (succeeds_ok _) (not_mistypedCode_scalar _)
  · split
    · next hg =>
      rw [succeeds_codeOfEntries?_iff, mistypedCode_iff]
      simp [hg]
    · next hne => exact iff_of_true (succeeds_ok _) (not_mistypedCode_of_get? rfl hne)

/-- **A value can be viewed just when it is no mistyped code.** -/
theorem succeeds_view_iff {v : Value} : Succeeds (g.view v) ↔ ¬ MistypedCode g v := by
  cases v with
  | scalar s =>
    refine iff_of_true ?_ (not_mistypedCode_scalar s)
    cases s <;> exact succeeds_ok _
  | container a =>
    rw [view]
    split
    · next hg => exact iff_of_true (succeeds_ok _) (not_mistypedCode_of_get? hg nofun)
    · next hg => exact iff_of_true (succeeds_ok _) (not_mistypedCode_of_get? hg nofun)
    · next entries hg =>
      have hentries : MistypedCode g (.container a) ↔ MistypedEntries g entries := by
        rw [mistypedCode_iff]
        simp [hg]
      rw [hentries, ← succeeds_codeOfEntries?_iff]
      constructor
      · intro h
        obtain ⟨c, hc, -⟩ := gives_bind_iff.mp h
        exact ⟨c, hc, trivial⟩
      · intro h
        refine h.bind fun c => ?_
        cases c <;> exact succeeds_pure _
    · next hg => exact iff_of_true (succeeds_ok _) (not_mistypedCode_of_get? hg nofun)
    · next hg => exact iff_of_true (succeeds_ok _) (not_mistypedCode_of_get? hg nofun)

end Graph

end Componentry
