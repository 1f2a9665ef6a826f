import Componentry.Document.Value
import Mathlib.Logic.Relation

/-!
# The parts of a value

A container contains its items, or its keys and values.  What a value contains, directly or through
other containers, are its parts; a value inside itself has finitely many parts all the same.

**Main statements.** Unfolding a value gives a tree of its parts (`unfoldWithin_cases`), so that what
holds of all scalars in a value holds of all scalars in its tree (`Graph.All.unfoldWithin`).  A value
is displayed if all scalars in it are (`Graph.All.exists_display`).
-/

namespace Componentry

open Relation (ReflTransGen)

/-! ## Unfolding -/

/-- A container as a tree, entering only the containers at the addresses `fresh` below it. -/
def Graph.unfoldContainer (g : Graph) (fresh : List Address) : Container → Tree
  | .list items => .list (items.map (g.unfoldWithin fresh))
  | .tuple items => .tuple (items.map (g.unfoldWithin fresh))
  | .set items => .set (items.map (g.unfoldWithin fresh))
  | .map entries =>
    .map (entries.map fun e => (g.unfoldWithin fresh e.1, g.unfoldWithin fresh e.2))

/-- A value unfolds to the scalar that it is, to null at an address not in use, to the container
that it is, or to a container inside itself. -/
theorem Graph.unfoldWithin_cases (g : Graph) (fresh : List Address) (v : Value) :
    (∃ s, v = .scalar s ∧ g.unfoldWithin fresh v = .scalar s) ∨
    (∃ a, v = .container a ∧ g.get? a = none ∧ g.unfoldWithin fresh v = .scalar .null) ∨
    (∃ a c, v = .container a ∧ g.get? a = some c ∧ a ∈ fresh ∧
      g.unfoldWithin fresh v = g.unfoldContainer (fresh.erase a) c) ∨
    ∃ kind, g.unfoldWithin fresh v = .again kind := by
  cases v with
  | scalar s => exact .inl ⟨s, rfl, by rw [unfoldWithin]⟩
  | container a =>
    cases hc : g.get? a with
    | none => exact .inr (.inl ⟨a, rfl, hc, by rw [unfoldWithin, hc]⟩)
    | some c =>
      by_cases ha : a ∈ fresh
      · refine .inr (.inr (.inl ⟨a, c, rfl, hc, ha, ?_⟩))
        rw [unfoldWithin, hc]
        simp only [dif_pos ha]
        cases c <;> rfl
      · refine .inr (.inr (.inr ⟨c.kind, ?_⟩))
        rw [unfoldWithin, hc]
        simp only [dif_neg ha]

/-! ## Parts -/

/-- What a container contains. -/
def Container.parts : Container → List Value
  | .list items | .tuple items | .set items => items
  | .map entries => entries.flatMap fun e => [e.1, e.2]

namespace Graph

variable {g : Graph}

/-- The value is a container and contains the other one. -/
def Contains (g : Graph) (v w : Value) : Prop :=
  ∃ a c, v = .container a ∧ g.get? a = some c ∧ w ∈ c.parts

/-- All scalars in a value satisfy `p`. -/
def All (p : Scalar → Prop) (g : Graph) (v : Value) : Prop :=
  ∀ s, ReflTransGen g.Contains v (.scalar s) → p s

variable {p : Scalar → Prop} {v w : Value}

theorem All.scalar {s : Scalar} (h : p s) : g.All p (.scalar s) := by
  intro t ht
  cases ht.cases_head with
  | inl he => cases he; exact h
  | inr hs =>
    obtain ⟨_, ⟨_, _, hv, _⟩, _⟩ := hs
    cases hv

theorem All.of_scalar {s : Scalar} (h : g.All p (.scalar s)) : p s :=
  h s .refl

theorem All.part (h : g.All p v) (hw : g.Contains v w) : g.All p w :=
  fun s hs => h s (.head hw hs)

theorem All.item {a : Address} {c : Container} (h : g.All p (.container a))
    (hc : g.get? a = some c) (hw : w ∈ c.parts) : g.All p w :=
  h.part ⟨a, c, rfl, hc, hw⟩

/-- What holds of all scalars in all containers holds of all scalars in one of them. -/
theorem All.of_containers (h : ∀ c ∈ g.containers, ∀ s, .scalar s ∈ c.parts → p s) (a : Address) :
    g.All p (.container a) := by
  intro s hs
  cases hs.cases_tail with
  | inl he => cases he
  | inr htail =>
    obtain ⟨_, -, b, c, -, hc, hm⟩ := htail
    exact h c (Array.mem_of_getElem? hc) s hm

/-- A container is at one of the addresses in use. -/
theorem mem_addresses {a : Address} {c : Container} (h : g.get? a = some c) : a ∈ g.addresses := by
  rw [addresses, List.mem_range]
  exact (Array.getElem?_eq_some_iff.mp h).1

theorem get?_add {a : Address} {c c' : Container} (h : g.get? a = some c) :
    (g.add c').1.get? a = some c := by
  unfold get? add at *
  obtain ⟨hlt, -⟩ := Array.getElem?_eq_some_iff.mp h
  rw [Array.getElem?_push_lt hlt, ← Array.getElem?_eq_getElem hlt]
  exact h

theorem get?_add_self (g : Graph) (c : Container) : (g.add c).1.get? (g.add c).2 = some c := by
  simp [get?, add]

theorem mem_parts_fst {entries : List (Value × Value)} {e : Value × Value} (h : e ∈ entries) :
    e.1 ∈ (Container.map entries).parts :=
  List.mem_flatMap.mpr ⟨e, h, List.mem_cons_self⟩

theorem mem_parts_snd {entries : List (Value × Value)} {e : Value × Value} (h : e ∈ entries) :
    e.2 ∈ (Container.map entries).parts :=
  List.mem_flatMap.mpr ⟨e, h, List.mem_cons_of_mem _ List.mem_cons_self⟩

end Graph

/-! ## Scalars in a tree -/

/-- All scalars in a tree satisfy `p`. -/
inductive Tree.All (p : Scalar → Prop) : Tree → Prop
  | scalar {s : Scalar} (h : p s) : All p (.scalar s)
  | list {items : List Tree} (h : ∀ t ∈ items, All p t) : All p (.list items)
  | tuple {items : List Tree} (h : ∀ t ∈ items, All p t) : All p (.tuple items)
  | set {items : List Tree} (h : ∀ t ∈ items, All p t) : All p (.set items)
  | map {entries : List (Tree × Tree)} (hk : ∀ e ∈ entries, All p e.1)
    (hv : ∀ e ∈ entries, All p e.2) : All p (.map entries)
  | again (kind : ContainerKind) : All p (.again kind)

theorem Graph.All.unfoldWithin {g : Graph} {p : Scalar → Prop} (hnull : p .null) :
    ∀ {fresh : List Address} {v : Value}, g.All p v → (g.unfoldWithin fresh v).All p := by
  intro fresh
  induction hn : fresh.length using Nat.strongRecOn generalizing fresh with
  | ind n ih =>
    intro v h
    rcases g.unfoldWithin_cases fresh v with
      ⟨s, rfl, hu⟩ | ⟨a, -, -, hu⟩ | ⟨a, c, rfl, hc, ha, hu⟩ | ⟨kind, hu⟩
    · rw [hu]
      exact .scalar h.of_scalar
    · rw [hu]
      exact .scalar hnull
    -- the induction is on the number of addresses that may still be entered
    · have hlt : (fresh.erase a).length < n := by
        have := List.length_pos_of_mem ha
        rw [List.length_erase_of_mem ha]
        omega
      have hpart : ∀ w ∈ c.parts, (g.unfoldWithin (fresh.erase a) w).All p :=
        fun w hw => ih _ hlt rfl (h.item hc hw)
      rw [hu]
      cases c with
      | list items => exact .list (List.forall_mem_map.mpr hpart)
      | tuple items => exact .tuple (List.forall_mem_map.mpr hpart)
      | set items => exact .set (List.forall_mem_map.mpr hpart)
      | map entries =>
        exact .map (List.forall_mem_map.mpr fun e he => hpart _ (mem_parts_fst he))
          (List.forall_mem_map.mpr fun e he => hpart _ (mem_parts_snd he))
    · rw [hu]
      exact .again kind

/-! ## Display -/

/-- Whether a scalar has a text inside another value. -/
def Scalar.HasText (s : Scalar) : Prop :=
  ∃ text, s.debug = .ok text

namespace Tree

theorem exists_debugs : ∀ {items : List Tree}, (∀ t ∈ items, ∃ text, t.debug = .ok text) →
    ∃ texts, debugs items = .ok texts
  | [], _ => ⟨[], by rw [debugs]⟩
  | t :: items, h => by
    obtain ⟨⟨text, ht⟩, h⟩ := List.forall_mem_cons.mp h
    obtain ⟨texts, hts⟩ := exists_debugs h
    exact ⟨text :: texts, by rw [debugs, ht, hts]; rfl⟩

theorem exists_debugEntries : ∀ {entries : List (Tree × Tree)},
    (∀ e ∈ entries, ∃ text, e.1.debug = .ok text) → (∀ e ∈ entries, ∃ text, e.2.debug = .ok text) →
    ∃ texts, debugEntries entries = .ok texts
  | [], _, _ => ⟨[], by rw [debugEntries]⟩
  | (k, v) :: entries, hk, hv => by
    obtain ⟨⟨key, hk⟩, hks⟩ := List.forall_mem_cons.mp hk
    obtain ⟨⟨value, hv⟩, hvs⟩ := List.forall_mem_cons.mp hv
    obtain ⟨texts, hts⟩ := exists_debugEntries hks hvs
    exact ⟨_, by rw [debugEntries, hk, hv, hts]; rfl⟩

theorem All.exists_debug {t : Tree} (h : t.All Scalar.HasText) : ∃ text, t.debug = .ok text := by
  induction h with
  | scalar h =>
    obtain ⟨text, ht⟩ := h
    exact ⟨text, by rw [debug, ht]⟩
  | list _ ih =>
    obtain ⟨texts, hts⟩ := exists_debugs ih
    exact ⟨_, by rw [debug, hts]; rfl⟩
  | tuple _ ih =>
    obtain ⟨texts, hts⟩ := exists_debugs ih
    rw [debug, hts]
    match texts with
    | [] => exact ⟨_, rfl⟩
    | [one] => exact ⟨_, rfl⟩
    | _ :: _ :: _ => exact ⟨_, rfl⟩
  | set _ ih =>
    obtain ⟨texts, hts⟩ := exists_debugs ih
    rw [debug, hts]
    match texts with
    | [] => exact ⟨_, rfl⟩
    | _ :: _ => exact ⟨_, rfl⟩
  | map _ _ ihk ihv =>
    obtain ⟨texts, hts⟩ := exists_debugEntries ihk ihv
    exact ⟨_, by rw [debug, hts]; rfl⟩
  | again kind => cases kind <;> exact ⟨_, by rw [debug]⟩

theorem All.exists_display {t : Tree} (h : t.All Scalar.HasText) :
    ∃ text, t.display = .ok text := by
  cases h with
  | @scalar s hs =>
    obtain ⟨text, ht⟩ := hs
    cases s <;> first | exact ⟨_, rfl⟩ | exact ⟨text, ht⟩
  | list h => exact (All.list h).exists_debug
  | tuple h => exact (All.tuple h).exists_debug
  | set h => exact (All.set h).exists_debug
  | map hk hv => exact (All.map hk hv).exists_debug
  | again kind => exact (All.again kind).exists_debug

end Tree

/-- A value is displayed if all scalars in it have a text. -/
theorem Graph.All.exists_display {g : Graph} {v : Value} (h : g.All Scalar.HasText v) :
    ∃ text, g.display v = .ok text :=
  (h.unfoldWithin ⟨_, rfl⟩).exists_display

end Componentry
