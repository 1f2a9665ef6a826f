import Componentry.Proofs.Yaml.Filling

/-!
# Documents that can be loaded

A scalar whose form reads it, a sequence and a mapping with scalars for keys are *readable*.  If all
nodes are, then no key merges other mappings, so loading leaves the nodes as they are, and every step
has a result (`Steady`).

**Main statement.** A node among readable ones can be loaded (`succeeds_root`).
-/

namespace Componentry.Yaml

/-- The node is a sequence that becomes a list, or a mapping with scalars for keys that becomes a map. -/
inductive Fillable (nodes : Array Node) (id : NodeId) : Form → Prop
  | list {items : List NodeId} (hc : (nodeIn nodes id).content = .sequence items) :
    Fillable nodes id .list
  | map {pairs : List (NodeId × NodeId)} (hc : (nodeIn nodes id).content = .mapping pairs)
    (hk : ∀ p ∈ pairs, ∃ text, (nodeIn nodes p.1).content = .scalar text) : Fillable nodes id .map

/-- Nothing stands in the way of loading the node. -/
inductive Readable (nodes : Array Node) (id : NodeId) : Prop
  | scalar {form : Form} {text : String} (ht : Form.ofTag? (nodeIn nodes id).tag = some form)
    (hc : (nodeIn nodes id).content = .scalar text) (hr : ∃ s, form.Reads (id + 1) text s)
  | collection {form : Form} (ht : Form.ofTag? (nodeIn nodes id).tag = some form)
    (hf : Fillable nodes id form)

variable {nodes : Array Node} {s : Loading} {id : NodeId}

theorem Readable.exists_form (h : Readable nodes id) :
    ∃ form, Form.ofTag? (nodeIn nodes id).tag = some form := by
  cases h with
  | scalar ht => exact ⟨_, ht⟩
  | collection ht => exact ⟨_, ht⟩

theorem Readable.tag_ne (h : Readable nodes id) :
    (nodeIn nodes id).tag ≠ mergeTag ∧ (nodeIn nodes id).tag ≠ valueTag := by
  obtain ⟨form, hf⟩ := h.exists_form
  refine ⟨?_, ?_⟩
  · rintro ht
    rw [ht, ofTag?_mergeTag] at hf
    cases hf
  · rintro ht
    rw [ht, ofTag?_valueTag] at hf
    cases hf

/-- A number without a node counts as an empty text. -/
theorem readable_of_size_le (h : nodes.size ≤ id) : Readable nodes id := by
  have hnode : nodeIn nodes id = ⟨textTag, {}, .scalar ""⟩ := by
    simp [nodeIn, Array.getD_eq_getD_getElem?, h]
  have ht : Form.ofTag? (nodeIn nodes id).tag = some .text := hnode ▸ ofTag?_textTag
  have hc : (nodeIn nodes id).content = .scalar "" := by rw [hnode]
  exact .scalar ht hc ⟨.text "", rfl⟩

/-- All nodes are readable. -/
def AllReadable (nodes : Array Node) : Prop :=
  ∀ id, Readable nodes id

theorem Fillable.content_ne {form : Form} (h : Fillable nodes id form) {text : String} :
    (nodeIn nodes id).content ≠ .scalar text := by
  intro hc
  cases h with
  | list hs => cases hc.symm.trans hs
  | map hp => cases hc.symm.trans hp

/-- The nodes are as they were, a node that is a scalar has a scalar for a value, and what waits can be
filled. -/
structure Steady (nodes : Array Node) (s : Loading) : Prop where
  same : s.nodes = nodes
  scalar : ∀ {id v text}, s.valueOf id = some v → (nodeIn nodes id).content = .scalar text →
    ∃ k, v = .scalar k
  waiting : ∀ e ∈ s.waiting, Fillable nodes e.1 e.2.1

/-- The state with a scalar for a node. -/
theorem Steady.addScalar (h : Steady nodes s) (id : NodeId) (k : Scalar) :
    Steady nodes { s with values := (id, .scalar k) :: s.values } where
  same := h.same
  scalar hv hc := by
    rcases eq_or_of_lookup_cons hv with ⟨-, rfl⟩ | hv
    · exact ⟨k, rfl⟩
    · exact h.scalar hv hc
  waiting := h.waiting

/-- The state with an empty container for a node that is no scalar. -/
theorem Steady.addContainer (h : Steady nodes s) {form : Form} (hf : Fillable nodes id form)
    (c : Container) : Steady nodes { s with
      graph := (s.graph.add c).1
      values := (id, .container (s.graph.add c).2) :: s.values
      waiting := s.waiting ++ [(id, form, (s.graph.add c).2)] } where
  same := h.same
  scalar hv hc := by
    rcases eq_or_of_lookup_cons hv with ⟨rfl, -⟩ | hv
    · exact absurd hc hf.content_ne
    · exact h.scalar hv hc
  waiting e he := by
    rcases List.mem_append.mp he with he | he
    · exact h.waiting e he
    · cases List.mem_singleton.mp he
      exact hf

namespace Loader

variable {α β : Type} {x : Loader α} {f : α → Loader β} {P : α → Prop} {Q : β → Prop}

/-- From a steady state the step has a result, which is as said, and gets to a steady state. -/
def GivesAt (nodes : Array Node) (s : Loading) (x : Loader α) (P : α → Prop) : Prop :=
  Steady nodes s → Gives (x.run s) fun r => Steady nodes r.2 ∧ P r.1

theorem givesAt_pure {a : α} (h : P a) : GivesAt nodes s (pure a) P :=
  fun hs => gives_pure ⟨hs, h⟩

theorem GivesAt.bind (hx : GivesAt nodes s x P) (hf : ∀ a s', P a → GivesAt nodes s' (f a) Q) :
    GivesAt nodes s (x >>= f) Q := by
  intro hs
  rw [StateT.run_bind]
  exact (hx hs).bind fun r hr => hf r.1 r.2 hr.2 hr.1

/-- A step may count on the state being steady. -/
theorem givesAt_of (h : Steady nodes s → GivesAt nodes s x P) : GivesAt nodes s x P :=
  fun hs => h hs hs

theorem givesAt_get_bind {f : Loading → Loader β} (h : GivesAt nodes s (f s) Q) :
    GivesAt nodes s (get >>= f) Q :=
  h

theorem givesAt_nodeAt_bind {id : NodeId} {f : Node → Loader β}
    (h : GivesAt nodes s (f (nodeIn nodes id)) Q) : GivesAt nodes s (nodeAt id >>= f) Q := by
  intro hs
  have hrun : (nodeAt id >>= f).run s = (f (nodeIn s.nodes id)).run s := rfl
  rw [hrun, hs.same]
  exact h hs

theorem givesAt_mapM {f : α → Loader β} (h : ∀ a s, GivesAt nodes s (f a) fun _ => True) :
    ∀ (as : List α) (s : Loading), GivesAt nodes s (as.mapM f) fun _ => True
  | [], s => by
    rw [List.mapM_nil]
    exact givesAt_pure trivial
  | a :: as, s => by
    rw [List.mapM_cons]
    exact (h a s).bind fun b s₁ _ => (givesAt_mapM h as s₁).bind fun bs s₂ _ => givesAt_pure trivial

/-! ## Values -/

/-- A scalar that its form reads has a value. -/
theorem run_scalar? {form : Form} {node : Node} {text : String} {k : Scalar}
    (hc : node.content = .scalar text) (hk : form.Reads (id + 1) text k) (s : Loading) :
    (scalar? id form node).run s = .ok (some k, s) := by
  have htext : ∀ n, scalarText (n + 1) node = pure text := by
    intro n
    rw [scalarText, hc]
  unfold scalar?
  simp only [htext]
  cases form with
  | null | text | code typing =>
    cases hk
    rfl
  | bool | int | float | octets =>
    obtain ⟨y, hy, rfl⟩ := hk
    simp only [bind_assoc, pure_bind, hy]
    rfl
  | timestamp =>
    have hread : timestampValue text = .ok k := hk
    simp only [bind_assoc, pure_bind, timestamp, hc, hread]
    rfl
  | list | map | set | pairs ordered => cases hk

/-- The value of a node; that of a scalar is a scalar. -/
theorem givesAt_value (hr : AllReadable nodes) (id : NodeId) (s : Loading) :
    GivesAt nodes s (value id) fun v =>
      ∀ text, (nodeIn nodes id).content = .scalar text → ∃ k, v = .scalar k := by
  refine givesAt_of fun hs => givesAt_get_bind ?_
  dsimp only
  split
  · next v hv => exact givesAt_pure fun text hc => hs.scalar hv hc
  · next hnew =>
    refine givesAt_nodeAt_bind ?_
    cases hr id with
    | scalar ht hc hk =>
      obtain ⟨k, hk⟩ := hk
      rw [ht]
      intro hs
      dsimp only
      rw [StateT.run_bind, run_scalar? hc hk]
      exact gives_ok ⟨hs.addScalar id k, fun _ _ => ⟨k, rfl⟩⟩
    | collection ht hf =>
      rw [ht]
      intro hs
      have hnone : ∀ {form node}, Fillable nodes id form →
          (scalar? id form node).run s = .ok (none, s) := by
        rintro form node (_ | _) <;> rfl
      dsimp only
      rw [StateT.run_bind, hnone hf]
      exact gives_ok ⟨hs.addContainer hf _, fun text hc => absurd hc hf.content_ne⟩

/-! ## Mappings without merging -/

theorem run_bind_of_eq {a : α} {s' : Loading} (h : x.run s = .ok (a, s')) :
    (x >>= f).run s = (f a).run s' := by
  rw [StateT.run_bind, h]
  rfl

theorem run_settleKeys (hr : AllReadable nodes) (hs : s.nodes = nodes) :
    ∀ pairs : List (NodeId × NodeId),
      (pairs.forM fun (key, _) => settleKey key : Loader Unit).run s = .ok ((), s)
  | [] => rfl
  | (key, other) :: pairs => by
    have hkey : (settleKey key).run s = .ok ((), s) := by
      have hnode : (nodeAt key).run s = .ok (nodeIn s.nodes key, s) := rfl
      unfold settleKey
      rw [run_bind_of_eq hnode, hs, if_neg (mt beq_iff_eq.mp (hr key).tag_ne.2)]
      rfl
    exact (run_bind_of_eq hkey).trans (run_settleKeys hr hs pairs)

/-- Where no key merges, flattening changes nothing. -/
theorem run_flatten (hr : AllReadable nodes) (hs : s.nodes = nodes) (id : NodeId) :
    (flatten id).run s = .ok ((), s) := by
  have hmerge : ∀ p, isMerge nodes p = false := fun p =>
    Bool.eq_false_iff.mpr (mt isMerge_iff.mp (hr p.1).tag_ne.1)
  have hindex : ∀ pairs : List (NodeId × NodeId), pairs[pairs.findIdx (isMerge nodes)]? = none := by
    intro pairs
    rw [List.findIdx_eq_length_of_false fun p _ => hmerge p]
    exact List.getElem?_eq_none (Nat.le_refl _)
  unfold flatten
  rw [run_bind_of_eq (rfl : (get : Loader Loading).run s = .ok (s, s)), flattenWith,
    run_bind_of_eq (rfl : (nodeAt id).run s = .ok (nodeIn s.nodes id, s)),
    run_bind_of_eq (run_mergedPairs id s),
    run_bind_of_eq (rfl : (get : Loader Loading).run s = .ok (s, s))]
  dsimp only
  rw [hs, hindex]
  exact run_bind_of_eq (run_settleKeys hr hs _)

/-! ## Containers -/

theorem givesAt_foldlM {step : β → α → Loader β} :
    ∀ {l : List α}, (∀ a ∈ l, ∀ b s, GivesAt nodes s (step b a) fun _ => True) →
      ∀ b s, GivesAt nodes s (l.foldlM step b) fun _ => True
  | [], _, b, s => givesAt_pure trivial
  | a :: l, h, b, s => by
    obtain ⟨ha, hl⟩ := List.forall_mem_cons.mp h
    rw [List.foldlM_cons]
    exact (ha b s).bind fun b' s' _ => givesAt_foldlM hl b' s'

/-- What is fillable gets filled. -/
theorem givesAt_contents (hr : AllReadable nodes) {form : Form} (hf : Fillable nodes id form)
    (s : Loading) : GivesAt nodes s (contents id form) fun _ => True := by
  refine givesAt_nodeAt_bind ?_
  cases hf with
  | list hc =>
    dsimp only
    rw [hc]
    refine (givesAt_mapM (fun item s => ?_) _ s).bind fun _ _ _ => givesAt_pure trivial
    exact fun hs => (givesAt_value hr item s hs).imp fun _ h => ⟨h.1, trivial⟩
  | map hc hk =>
    refine GivesAt.bind (P := fun _ => True) (givesAt_nodeAt_bind ?_) fun _ _ _ => givesAt_pure trivial
    dsimp only
    rw [hc]
    intro hs
    dsimp only
    rw [run_bind_of_eq (run_flatten hr hs.same id), run_bind_of_eq (run_mergedPairs id s), hs.same,
      Node.pairs_eq hc]
    refine givesAt_foldlM (fun p hp es s => ?_) [] s hs
    obtain ⟨text, htext⟩ := hk p hp
    refine (givesAt_value hr p.1 s).bind fun v s₁ hv => ?_
    obtain ⟨k, rfl⟩ := hv text htext
    exact (givesAt_value hr p.2 s₁).bind fun v s₂ _ => givesAt_get_bind (givesAt_pure trivial)

/-- All that waits gets filled. -/
theorem givesAt_fillAll (hr : AllReadable nodes) : ∀ (limit : Nat) (s : Loading),
    GivesAt nodes s (fillAll limit) fun _ => True
  | 0, s => givesAt_pure trivial
  | limit + 1, s => by
    rw [fillAll]
    refine givesAt_of fun hs => givesAt_get_bind ?_
    split
    · exact givesAt_pure trivial
    · next id form address rest hw =>
      have hwaiting := hs.waiting
      rw [hw] at hwaiting
      obtain ⟨hf, hrest⟩ := List.forall_mem_cons.mp hwaiting
      refine GivesAt.bind (P := fun _ => True) (fun hs => gives_ok ⟨⟨hs.same, hs.scalar, hrest⟩, trivial⟩)
        fun _ s₁ _ => (givesAt_contents hr hf s₁).bind fun c s₂ _ => ?_
      refine GivesAt.bind (P := fun _ => True)
        (fun hs => gives_ok ⟨⟨hs.same, hs.scalar, hs.waiting⟩, trivial⟩)
        fun _ s₃ _ => givesAt_fillAll hr limit s₃

end Loader

/-- **A node among readable ones can be loaded.** -/
theorem succeeds_root (hr : AllReadable nodes) (id : NodeId) :
    Succeeds ((Loader.root id).run { nodes }) := by
  have hs : Steady nodes { nodes } :=
    ⟨rfl, by rintro id v text ⟨⟩, List.forall_mem_nil _⟩
  have hroot : Loader.GivesAt nodes { nodes } (Loader.root id) fun _ => True :=
    (Loader.givesAt_value hr id _).bind fun v s₁ _ => Loader.givesAt_get_bind
      ((Loader.givesAt_fillAll hr _ s₁).bind fun _ _ _ => Loader.givesAt_pure trivial)
  exact (hroot hs).succeeds

end Componentry.Yaml
