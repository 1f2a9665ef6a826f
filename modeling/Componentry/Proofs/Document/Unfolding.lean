import Componentry.Proofs.Document.Parts

/-!
# Values that are not inside themselves

`Unfolds g v t` says that the tree `t` is the value `v` with everything that it contains written out,
a container as often as it is met.  It says nothing of addresses, and so a value that is inside
itself unfolds to no tree at all.

**Main statements.** A value has at most one such tree (`Unfolds.unique`), and it has one just when no
container in it is inside itself (`Acyclic.unfolds`, `Unfolds.acyclic`).  The tree of a container is
then made of the trees of its parts (`Acyclic.unfold_container`).
-/

namespace Componentry

open Relation (ReflTransGen TransGen)

/-- A container as a tree, with the trees of its parts given. -/
def Container.tree (part : Value → Tree) : Container → Tree
  | .list items => .list (items.map part)
  | .tuple items => .tuple (items.map part)
  | .set items => .set (items.map part)
  | .map entries => .map (entries.map fun e => (part e.1, part e.2))

/-- Whether a value is a scalar, or a container that comes behind the address `a`. -/
def Value.isBehind (a : Address) : Value → Bool
  | .scalar _ => true
  | .container b => a < b

namespace Graph

/-- The tree `t` is the value `v` with all its parts written out. -/
inductive Unfolds (g : Graph) : Value → Tree → Prop
  | scalar (s : Scalar) : Unfolds g (.scalar s) (.scalar s)
  | vacant {a : Address} (h : g.get? a = none) : Unfolds g (.container a) (.scalar .null)
  | container {a : Address} {c : Container} {part : Value → Tree} (h : g.get? a = some c)
    (hparts : ∀ w ∈ c.parts, Unfolds g w (part w)) : Unfolds g (.container a) (c.tree part)

/-- Nothing in the value is inside itself. -/
def Acyclic (g : Graph) (v : Value) : Prop :=
  ∀ w, ReflTransGen g.Contains v w → ¬ TransGen g.Contains w w

variable {g : Graph} {v w : Value} {a : Address} {c : Container}

/-! ## One tree -/

theorem tree_congr {part part' : Value → Tree} (h : ∀ w ∈ c.parts, part w = part' w) :
    c.tree part = c.tree part' := by
  cases c with
  | list items => exact congrArg Tree.list (List.map_congr_left h)
  | tuple items => exact congrArg Tree.tuple (List.map_congr_left h)
  | set items => exact congrArg Tree.set (List.map_congr_left h)
  | map entries =>
    refine congrArg Tree.map (List.map_congr_left fun e he => ?_)
    rw [h e.1 (mem_parts_fst he), h e.2 (mem_parts_snd he)]

/-- **A value unfolds to one tree at most.** -/
theorem Unfolds.unique {t t' : Tree} (h : g.Unfolds v t) (h' : g.Unfolds v t') : t = t' := by
  induction h generalizing t' with
  | scalar s =>
    cases h'
    rfl
  | vacant h =>
    cases h' with
    | vacant _ => rfl
    | container hc _ => cases h.symm.trans hc
  | container hc _ ih =>
    cases h' with
    | vacant h => cases h.symm.trans hc
    | container hc' hparts' =>
      cases hc.symm.trans hc'
      exact tree_congr fun w hw => ih w hw (hparts' w hw)

/-! ## A tree for each value -/

theorem Acyclic.part (h : g.Acyclic v) (hw : g.Contains v w) : g.Acyclic w :=
  fun x hx => h x (.head hw hx)

/-- What is in a container does not contain it. -/
theorem Acyclic.not_around (h : g.Acyclic w) (hw : g.Contains v w) :
    ¬ ReflTransGen g.Contains w v :=
  fun hback => h w .refl (.tail' hback hw)

theorem Acyclic.not_reaches (h : g.Acyclic v) (hw : g.Contains v w) :
    ¬ ReflTransGen g.Contains w v :=
  (h.part hw).not_around hw

/-- Nothing is inside itself if containers contain only such as come behind them. -/
theorem acyclic_of_ascending
    (h : ∀ a c b, g.get? a = some c → .container b ∈ c.parts → a < b) (v : Value) :
    g.Acyclic v := by
  have hascends : ∀ {w x : Value}, TransGen g.Contains w x → ∀ b, x = .container b →
      ∃ a, w = .container a ∧ a < b := by
    intro w x hway
    induction hway using TransGen.head_induction_on with
    | single hstep =>
      rintro b rfl
      obtain ⟨a, c, rfl, hc, hb⟩ := hstep
      exact ⟨a, rfl, h a c b hc hb⟩
    | head hstep _ ih =>
      intro b hb
      obtain ⟨a', rfl, hlt⟩ := ih b hb
      obtain ⟨a, c, rfl, hc, ha'⟩ := hstep
      exact ⟨a, rfl, Nat.lt_trans (h a c a' hc ha') hlt⟩
  intro w _ hcycle
  obtain ⟨_, ⟨a, c, rfl, -, -⟩, -⟩ := TransGen.head'_iff.mp hcycle
  obtain ⟨a', ha', hlt⟩ := hascends hcycle a rfl
  cases ha'
  exact Nat.lt_irrefl a hlt

/-- Whether the containers contain only such as come behind them. -/
def isAscending (g : Graph) : Bool :=
  g.addresses.all fun a => (g.get? a).all fun c => c.parts.all (·.isBehind a)

theorem acyclic_of_isAscending (h : g.isAscending = true) (v : Value) : g.Acyclic v := by
  refine acyclic_of_ascending (fun a c b hc hb => ?_) v
  have hat : (g.get? a).all (fun c => c.parts.all (·.isBehind a)) = true :=
    List.all_eq_true.mp h a (mem_addresses hc)
  rw [hc] at hat
  exact of_decide_eq_true (List.all_eq_true.mp hat _ hb)

theorem unfoldContainer_eq (g : Graph) (fresh : List Address) (c : Container) :
    g.unfoldContainer fresh c = c.tree (g.unfoldWithin fresh) := by
  cases c <;> rfl

/-- If all containers in a value may be entered, entering them one by one meets none again. -/
theorem Acyclic.unfolds_unfoldWithin {fresh : List Address} (h : g.Acyclic v)
    (hfresh : ∀ a c, ReflTransGen g.Contains v (.container a) → g.get? a = some c → a ∈ fresh) :
    g.Unfolds v (g.unfoldWithin fresh v) := by
  induction hn : fresh.length using Nat.strongRecOn generalizing fresh v with
  | ind n ih =>
    cases v with
    | scalar s =>
      rw [unfoldWithin]
      exact .scalar s
    | container a =>
      cases hc : g.get? a with
      | none =>
        rw [unfoldWithin, hc]
        exact .vacant hc
      | some c =>
        have ha : a ∈ fresh := hfresh a c .refl hc
        have hunfold : g.unfoldWithin fresh (.container a) =
            c.tree (g.unfoldWithin (fresh.erase a)) := by
          rw [← unfoldContainer_eq, unfoldWithin, hc]
          simp only [dif_pos ha]
          cases c <;> rfl
        rw [hunfold]
        refine .container hc fun w hw => ?_
        have hpart : g.Contains (.container a) w := ⟨a, c, rfl, hc, hw⟩
        have hlt : (fresh.erase a).length < n := by
          have := List.length_pos_of_mem ha
          rw [List.length_erase_of_mem ha]
          omega
        refine ih _ hlt (h.part hpart) (fun b d hb hd => ?_) rfl
        -- the container itself is not met again, and all others may still be entered
        have hne : b ≠ a := by
          rintro rfl
          exact h.not_reaches hpart hb
        exact (List.mem_erase_of_ne hne).mpr (hfresh b d (.head hpart hb) hd)

/-- **A value that is not inside itself unfolds to a tree.** -/
theorem Acyclic.unfolds (h : g.Acyclic v) : g.Unfolds v (g.unfold v) :=
  h.unfolds_unfoldWithin fun _ _ _ hc => mem_addresses hc

/-- The tree of a container is made of the trees of its parts. -/
theorem Acyclic.unfold_container (h : g.Acyclic (.container a)) (hc : g.get? a = some c) :
    g.unfold (.container a) = c.tree g.unfold := by
  have hparts : ∀ w ∈ c.parts, g.Unfolds w (g.unfold w) :=
    fun w hw => (h.part ⟨a, c, rfl, hc, hw⟩).unfolds
  exact h.unfolds.unique (.container hc hparts)

/-- Nothing is inside itself if that holds of all parts: a way back to a container goes through one of
its parts, which is then inside itself. -/
theorem acyclic_of_parts (h : ∀ w, g.Contains v w → g.Acyclic w) : g.Acyclic v := by
  intro x hx hcycle
  rcases hx.cases_head with rfl | ⟨w, hw, hwx⟩
  · obtain ⟨w, hw, hback⟩ := TransGen.head'_iff.mp hcycle
    exact h w hw w .refl (.tail' hback hw)
  · exact h w hw x hwx hcycle

/-- **A value that unfolds to a tree is not inside itself.** -/
theorem Unfolds.acyclic {t : Tree} (h : g.Unfolds v t) : g.Acyclic v := by
  induction h with
  | scalar s =>
    refine acyclic_of_parts ?_
    rintro w ⟨a, c, hv, -⟩
    cases hv
  | vacant h =>
    refine acyclic_of_parts ?_
    rintro w ⟨a, c, hv, hc, -⟩
    cases hv
    cases h.symm.trans hc
  | container hc _ ih =>
    refine acyclic_of_parts ?_
    rintro w ⟨a, c, hv, hc', hw⟩
    cases hv
    cases hc.symm.trans hc'
    exact ih w hw

theorem Unfolds.unfold_eq {t : Tree} (h : g.Unfolds v t) : g.unfold v = t :=
  h.acyclic.unfolds.unique h

end Graph

end Componentry
