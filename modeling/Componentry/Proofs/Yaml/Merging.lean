import Componentry.Proofs.Yaml.Load

/-!
# Merging

What merging makes of a node shows what the node was: a sequence has not changed, and if no pair of a
mapping merges any more, then its pairs are others and then its own.  Values, containers and what waits
are left alone, and there are no pairs but those that some mapping had before (`merging_flatten`).
-/

namespace Componentry.Yaml

variable {nodes : Array Node}

/-- A node that is a sequence after some merging has been that sequence. -/
theorem Node.Settles.sequence {n n' : Node} {items : List NodeId} (h : n.Settles nodes n')
    (hc : n'.content = .sequence items) : n.content = .sequence items := by
  rcases h.content with he | ⟨pairs, pairs', -, hp', -⟩
  · exact he ▸ hc
  · cases hc.symm.trans hp'

/-- A node that is a mapping after some merging: if no pair of it merges, then the pairs are other ones
and then the own ones of the mapping that it has been. -/
theorem Node.Settles.exists_merged {n n' : Node} {pairs : List (NodeId × NodeId)}
    (h : n.Settles nodes n') (hc : n'.content = .mapping pairs)
    (hm : ∀ p ∈ pairs, (nodeIn nodes p.1).tag ≠ mergeTag) :
    ∃ pairs₀ merged, n.content = .mapping pairs₀ ∧ merged ++ ownPairs nodes pairs₀ = pairs := by
  have hown : ownPairs nodes pairs = pairs := List.filter_eq_self.mpr fun p hp => by simpa using hm p hp
  rcases h.content with he | ⟨pairs₀, pairs', hp₀, hp', merged, hmerged⟩
  · exact ⟨pairs, [], he ▸ hc, hown⟩
  · obtain rfl : pairs' = pairs := Content.mapping.inj (hp'.symm.trans hc)
    exact ⟨pairs₀, merged, hp₀, hmerged.trans hown⟩

theorem Node.pairs_eq {n : Node} {pairs : List (NodeId × NodeId)} (h : n.content = .mapping pairs) :
    n.pairs = pairs := by
  rw [Node.pairs, h]

/-! ## What merging leaves alone -/

namespace Loader

variable {α β : Type}

/-- What merging does not touch. -/
def rest (s : Loading) : List (NodeId × Value) × Graph × List (NodeId × Form × Address) :=
  (s.values, s.graph, s.waiting)

variable {P : NodeId × NodeId → Prop} {x : Loader α} {f : α → Loader β} {Q : α → Prop} {R : β → Prop}

/-- `P` holds of the pairs of all mappings. -/
def AllPairs (P : NodeId × NodeId → Prop) (s : Loading) : Prop :=
  ∀ id, ∀ p ∈ (nodeIn s.nodes id).pairs, P p

/-- The step only changes nodes, and it makes no pairs: what holds of all pairs still does so.  `Q` holds
of what the step returns. -/
def Merging (P : NodeId × NodeId → Prop) (x : Loader α) (Q : α → Prop) : Prop :=
  ∀ s, AllPairs P s → Ensures (x.run s) fun r => rest r.2 = rest s ∧ AllPairs P r.2 ∧ Q r.1

theorem merging_pure {a : α} (h : Q a) : Merging P (pure a) Q :=
  fun _ hs => ensures_pure ⟨rfl, hs, h⟩

theorem Merging.bind (hx : Merging P x Q) (hf : ∀ a, Q a → Merging P (f a) R) :
    Merging P (x >>= f) R := by
  intro s hs
  rw [StateT.run_bind]
  refine (hx s hs).bind fun r hr => (hf r.1 hr.2.2 r.2 hr.2.1).imp fun r' hr' => ?_
  exact ⟨hr'.1.trans hr.1, hr'.2⟩

theorem merging_problemWithin (activity : Activity) (outer : Node) (what : Problem) (node : Node) :
    Merging P (problemWithin activity outer what node : Loader α) Q :=
  fun _ _ => ensures_error _

theorem merging_get : Merging P get fun _ => True :=
  fun _ hs => ensures_pure ⟨rfl, hs, trivial⟩

theorem merging_nodeAt (id : NodeId) : Merging P (nodeAt id) fun node => ∀ p ∈ node.pairs, P p :=
  fun _ hs => ensures_pure ⟨rfl, hs, hs id⟩

theorem merging_setNode (id : NodeId) {node : Node} (h : ∀ p ∈ node.pairs, P p) :
    Merging P (setNode id node) fun _ => True := by
  refine fun s hs => ensures_pure ⟨rfl, fun id' => ?_, trivial⟩
  rcases nodeIn_setIfInBounds s.nodes id id' node with he | ⟨-, he⟩
  · simpa only [he] using hs id'
  · simpa only [he] using h

theorem merging_mapM (h : ∀ a, Merging P (f a) R) :
    ∀ as : List α, Merging P (as.mapM f) fun bs => ∀ b ∈ bs, R b
  | [] => by
    rw [List.mapM_nil]
    exact merging_pure (List.forall_mem_nil _)
  | a :: as => by
    rw [List.mapM_cons]
    refine (h a).bind fun b hb => (merging_mapM h as).bind fun bs hbs => ?_
    exact merging_pure (List.forall_mem_cons.mpr ⟨hb, hbs⟩)

theorem merging_mergedPairs (id : NodeId) :
    Merging P (mergedPairs id) fun pairs => ∀ p ∈ pairs, P p := by
  intro s hs
  rw [run_mergedPairs]
  exact ensures_ok ⟨rfl, hs, hs id⟩

theorem merging_settleKeys : ∀ pairs : List (NodeId × NodeId),
    Merging P (pairs.forM fun (key, _) => settleKey key) fun _ => True
  | [] => merging_pure trivial
  | (key, _) :: pairs => by
    refine Merging.bind (Q := fun _ => True) ((merging_nodeAt key).bind fun node hnode => ?_)
      fun _ _ => merging_settleKeys pairs
    split
    · exact merging_setNode key hnode
    · exact merging_pure trivial

theorem merging_flattenWith : ∀ (limit : Nat) (id : NodeId) {merged : List (NodeId × NodeId)},
    (∀ p ∈ merged, P p) → Merging P (flattenWith id limit merged) fun _ => True
  | 0, id, merged, _ => merging_pure trivial
  | limit + 1, id, merged, hmerged => by
    have happend : ∀ {pairs : List (NodeId × NodeId)}, (∀ p ∈ pairs, P p) → ∀ p ∈ merged ++ pairs, P p :=
      fun hpairs => List.forall_mem_append.mpr ⟨hmerged, hpairs⟩
    rw [flattenWith]
    refine (merging_nodeAt id).bind fun node _ => (merging_mergedPairs id).bind fun pairs hpairs =>
      merging_get.bind fun s _ => ?_
    dsimp only
    split
    · refine (merging_settleKeys pairs).bind fun _ _ => ?_
      split
      · exact merging_setNode id (happend hpairs)
      · exact merging_pure trivial
    · have herase : ∀ {i : Nat}, ∀ p ∈ pairs.eraseIdx i, P p := fun p hp =>
        hpairs p (List.mem_of_mem_eraseIdx hp)
      refine Merging.bind (Q := fun _ => True) (merging_setNode id herase) fun _ _ =>
        (merging_nodeAt _).bind fun other _ => ?_
      split
      · exact (merging_flattenWith limit _ (List.forall_mem_nil _)).bind fun _ _ =>
          (merging_mergedPairs _).bind fun _ hother => merging_flattenWith limit _ (happend hother)
      · refine (merging_mapM (R := fun part => ∀ p ∈ part, P p) (fun item =>
          (merging_nodeAt item).bind fun node _ => ?_) _).bind fun parts hparts =>
            merging_flattenWith limit _ (happend fun p hp => ?_)
        · split
          · exact (merging_flattenWith limit _ (List.forall_mem_nil _)).bind fun _ _ =>
              merging_mergedPairs _
          · exact merging_problemWithin _ _ _ _
        · obtain ⟨part, hpart, hp⟩ := List.mem_flatten.mp hp
          exact hparts part (List.mem_reverse.mp hpart) p hp
      · exact merging_problemWithin _ _ _ _

theorem merging_flatten (id : NodeId) : Merging P (flatten id) fun _ => True :=
  merging_get.bind fun _ _ => merging_flattenWith _ _ (List.forall_mem_nil _)

end Loader

end Componentry.Yaml
