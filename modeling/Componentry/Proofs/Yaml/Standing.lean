import Componentry.Proofs.Yaml.Token
import Componentry.Yaml.Load
import Mathlib.Data.Fintype.Pigeonhole
import Mathlib.Logic.Relation

/-!
# Values that stand for mappings

Where a scalar belongs, a mapping may stand for one of its values: the one under a key with the tag of
values.  That value may be such a mapping again, and so on.  An alias can lead back to a mapping on the
way, and then there is no end.

**Main statement.** The text of a node is that of the scalar for which it stands in the end; looking for
it is endless if and only if the node comes to a mapping that stands for itself
(`run_scalarText_eq_endless_iff`).  Since more steps than there are nodes pass some node twice, the limit
on the steps plays no other role.
-/

namespace Componentry.Yaml

open Relation (ReflTransGen TransGen)

/-- The node with a number.  A number without a node counts as an empty text. -/
def nodeIn (nodes : Array Node) (id : NodeId) : Node :=
  nodes.getD id ⟨textTag, {}, .scalar ""⟩

/-- The value that stands for a mapping: the first under a key with the tag of values. -/
def Node.standing? (nodes : Array Node) (n : Node) : Option NodeId :=
  match n.content with
  | .mapping pairs => (pairs.find? fun p => (nodeIn nodes p.1).tag == valueTag).map (·.2)
  | _ => none

/-- The second node stands for the first one, which is a mapping. -/
def Stands (nodes : Array Node) (id id' : NodeId) : Prop :=
  (nodeIn nodes id).standing? nodes = some id'

/-- The text is that of the scalar for which the node stands in the end. -/
def TextOf (nodes : Array Node) (id : NodeId) (text : String) : Prop :=
  ∃ id', ReflTransGen (Stands nodes) id id' ∧ (nodeIn nodes id').content = .scalar text

/-- The node comes to a mapping that stands for itself. -/
def Endless (nodes : Array Node) (id : NodeId) : Prop :=
  ∃ id', ReflTransGen (Stands nodes) id id' ∧ TransGen (Stands nodes) id' id'

variable {nodes : Array Node} {id id' : NodeId}

theorem Stands.exists_mapping (h : Stands nodes id id') :
    ∃ pairs, (nodeIn nodes id).content = .mapping pairs := by
  unfold Stands Node.standing? at h
  split at h
  · next pairs hc => exact ⟨pairs, hc⟩
  · cases h

/-- Only nodes that are there stand for others. -/
theorem Stands.lt_size (h : Stands nodes id id') : id < nodes.size := by
  by_contra hlt
  obtain ⟨pairs, hc⟩ := h.exists_mapping
  simp [nodeIn, Array.getD_eq_getD_getElem?, hlt] at hc

/-- A scalar stands for itself only. -/
theorem TextOf.eq {text text' : String} (h : TextOf nodes id text)
    (hc : (nodeIn nodes id).content = .scalar text') : text = text' := by
  obtain ⟨id', hreach, htext⟩ := h
  rcases hreach.cases_head with rfl | ⟨next, hnext, -⟩
  · exact Content.scalar.inj (htext.symm.trans hc)
  · obtain ⟨pairs, hp⟩ := hnext.exists_mapping
    cases hp.symm.trans hc

/-- A node with a text that is no scalar is a mapping. -/
theorem TextOf.exists_mapping {text : String} (h : TextOf nodes id text)
    (hc : ∀ text, (nodeIn nodes id).content ≠ .scalar text) :
    ∃ pairs, (nodeIn nodes id).content = .mapping pairs := by
  obtain ⟨id', hreach, htext⟩ := h
  rcases hreach.cases_head with rfl | ⟨next, hnext, -⟩
  · exact absurd htext (hc text)
  · exact hnext.exists_mapping

/-! ## Without end -/

/-- What comes next is endless as well. -/
theorem Endless.exists_stands (h : Endless nodes id) : ∃ id', Stands nodes id id' ∧ Endless nodes id' := by
  obtain ⟨back, hreach, hback⟩ := h
  rcases hreach.cases_head with rfl | ⟨next, hnext, hrest⟩
  · obtain ⟨next, hnext, hrest⟩ := TransGen.head'_iff.mp hback
    exact ⟨next, hnext, id, hrest, hback⟩
  · exact ⟨next, hnext, back, hrest, hback⟩

/-- The node that stands for a node, and the node itself if there is none. -/
def follow (nodes : Array Node) (id : NodeId) : NodeId :=
  ((nodeIn nodes id).standing? nodes).getD id

theorem Stands.follow_eq (h : Stands nodes id id') : follow nodes id = id' := by
  rw [follow, h, Option.getD_some]

/-- From a node on, so many nodes stand for others. -/
def Passes (nodes : Array Node) (steps : Nat) (id : NodeId) : Prop :=
  ∀ i < steps, Stands nodes ((follow nodes)^[i] id) ((follow nodes)^[i + 1] id)

theorem Passes.succ {steps : Nat} (hs : Stands nodes id id') (h : Passes nodes steps id') :
    Passes nodes (steps + 1) id := by
  intro i hi
  cases i with
  | zero =>
    rw [Function.iterate_zero_apply, Function.iterate_succ_apply, hs.follow_eq]
    exact hs
  | succ i =>
    rw [Function.iterate_succ_apply, Function.iterate_succ_apply, hs.follow_eq]
    exact h i (Nat.lt_of_succ_lt_succ hi)

theorem Passes.reaches {steps i j : Nat} (h : Passes nodes steps id) (hij : i ≤ j) (hj : j ≤ steps) :
    ReflTransGen (Stands nodes) ((follow nodes)^[i] id) ((follow nodes)^[j] id) := by
  induction j, hij using Nat.le_induction with
  | base => exact .refl
  | succ j _ ih => exact (ih (Nat.le_of_succ_le hj)).tail (h j hj)

/-- More steps than there are nodes come to some node twice. -/
theorem Passes.endless (h : Passes nodes (nodes.size + 1) id) : Endless nodes id := by
  have key : ∀ i j : Fin (nodes.size + 1), i < j → (follow nodes)^[i] id = (follow nodes)^[j] id →
      Endless nodes id := by
    intro i j hij he
    have hback := TransGen.head' (h i i.2) (h.reaches hij (Nat.le_of_lt j.2))
    rw [← he] at hback
    exact ⟨_, h.reaches (Nat.zero_le i) (Nat.le_of_lt i.2), hback⟩
  obtain ⟨i, j, hne, he⟩ := Fintype.exists_ne_map_eq_of_card_lt
    (fun i : Fin (nodes.size + 1) => (⟨(follow nodes)^[i] id, (h i i.2).lt_size⟩ : Fin nodes.size))
    (by simp)
  rcases lt_or_gt_of_ne hne with hij | hij
  · exact key i j hij (congrArg Fin.val he)
  · exact key j i hij (congrArg Fin.val he.symm)

/-! ## The text of a node -/

namespace Loader

variable {s : Loading}

theorem run_findM? (pairs : List (NodeId × NodeId)) (s : Loading) :
    (pairs.findM? fun (key, _) => return (← nodeAt key).tag == valueTag : Loader _).run s =
      .ok (pairs.find? fun p => (nodeIn s.nodes p.1).tag == valueTag, s) := by
  induction pairs with
  | nil => rfl
  | cons p pairs ih =>
    rw [List.findM?, StateT.run_bind]
    have hrun : (do return (← nodeAt p.1).tag == valueTag : Loader Bool).run s =
        .ok ((nodeIn s.nodes p.1).tag == valueTag, s) := rfl
    rw [hrun, List.find?_cons]
    cases (nodeIn s.nodes p.1).tag == valueTag with
    | true => rfl
    | false => exact ih

/-- One step: a scalar has its text, for a mapping the value is taken that stands for it, and everything
else is a problem. -/
theorem run_scalarText_succ (limit : Nat) (id : NodeId) (s : Loading) :
    (scalarText (limit + 1) (nodeIn s.nodes id)).run s =
      match (nodeIn s.nodes id).content, (nodeIn s.nodes id).standing? s.nodes with
      | .scalar text, _ => .ok (text, s)
      | _, some id' => (scalarText limit (nodeIn s.nodes id')).run s
      | content, none =>
        .error (.problem none (.expectedNode "a scalar node" content.word) (nodeIn s.nodes id).mark) := by
  rw [scalarText, Node.standing?]
  cases hc : (nodeIn s.nodes id).content with
  | scalar text => rfl
  | sequence items => rfl
  | mapping pairs =>
    dsimp only
    rw [StateT.run_bind, run_findM?]
    cases pairs.find? fun p => (nodeIn s.nodes p.1).tag == valueTag with
    | none => rfl
    | some p => rfl

theorem run_scalarText_of_stands (limit : Nat) (h : Stands s.nodes id id') :
    (scalarText (limit + 1) (nodeIn s.nodes id)).run s =
      (scalarText limit (nodeIn s.nodes id')).run s := by
  obtain ⟨pairs, hc⟩ := h.exists_mapping
  rw [run_scalarText_succ, h, hc]

/-- A text that is found is the text of the node, and only what goes on to the limit is a fault. -/
theorem meets_scalarText (s : Loading) : ∀ (limit : Nat) (id : NodeId),
    Meets ((scalarText limit (nodeIn s.nodes id)).run s) (fun r => r.2 = s ∧ TextOf s.nodes id r.1)
      fun f => f = .endless ∧ Passes s.nodes limit id
  | 0, id => meets_fault ⟨rfl, fun i hi => absurd hi (Nat.not_lt_zero i)⟩
  | limit + 1, id => by
    cases hs : (nodeIn s.nodes id).standing? s.nodes with
    | some id' =>
      have hstands : Stands s.nodes id id' := hs
      rw [run_scalarText_of_stands limit hstands]
      refine (meets_scalarText s limit id').imp (fun r hr => ⟨hr.1, ?_⟩) fun f hf =>
        ⟨hf.1, hf.2.succ hstands⟩
      obtain ⟨last, hreach, htext⟩ := hr.2
      exact ⟨last, .head hstands hreach, htext⟩
    | none =>
      rw [run_scalarText_succ, hs]
      cases hc : (nodeIn s.nodes id).content with
      | scalar text => exact meets_ok ⟨rfl, id, .refl, hc⟩
      | sequence items => exact meets_problem
      | mapping pairs => exact meets_problem

theorem run_scalarText_of_endless (h : Endless s.nodes id) (limit : Nat) :
    (scalarText limit (nodeIn s.nodes id)).run s = .error (.fault .endless) := by
  induction limit generalizing id with
  | zero => rfl
  | succ limit ih =>
    obtain ⟨id', hs, h'⟩ := h.exists_stands
    rw [run_scalarText_of_stands limit hs]
    exact ih h'

/-- **Only a mapping that comes back to itself has no end.** -/
theorem run_scalarText_eq_endless_iff (s : Loading) (id : NodeId) :
    (scalarText (s.nodes.size + 1) (nodeIn s.nodes id)).run s = .error (.fault .endless) ↔
      Endless s.nodes id := by
  constructor
  · intro h
    exact ((meets_scalarText s _ id).blames _ h).2.endless
  · exact fun h => run_scalarText_of_endless h _

end Loader

end Componentry.Yaml
