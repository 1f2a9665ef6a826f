import Componentry.Proofs.Yaml.Grammar
import Componentry.Proofs.Yaml.Standing

/-!
# Faults in the values of nodes

A node becomes a value by the form that its tag asks for.  The readers of truth values, integers,
numbers and dates refuse texts with a fault, and it is a fault to look for a text without end; all other
things that are wrong with a node have a place.

Merging changes the nodes on the way, but not much: a mapping gets other pairs in front of its own, and
a key that stands for a whole mapping gets the tag of texts (`Node.Settles`).  Merging itself has no
faults (`follows_flatten`).

**Main statement.** A fault in the value of a text is due to a number or an escape in it, or to one of
its nodes as merging leaves it, whose tag asks for a form that it cannot be read in
(`fault_of_valueOfText`).
-/

namespace Componentry.Yaml

open Relation (ReflTransGen)

/-! ## What faults are due to -/

/-- Whether the form is one of collections. -/
def Form.isCollection : Form → Bool
  | .list | .map | .set | .pairs _ => true
  | _ => false

/-- The form does not read the text, for this fault. -/
def Form.Refuses (form : Form) (text : String) (f : Fault) : Prop :=
  match form with
  | .bool => truthValue text = .error f
  | .int => integerValue text = .error f
  | .float => ∃ own, floatValue own text = .error f
  | .timestamp => timestampValue text = .error f
  | _ => False

/-- The node cannot be read in the form, and this is the fault. -/
inductive Unfit (nodes : Array Node) (id : NodeId) : Form → Fault → Prop
  /-- The text of the node does not have the form. -/
  | text {form : Form} {text : String} {f : Fault} (hx : TextOf nodes id text)
    (hr : form.Refuses text f) : Unfit nodes id form f
  /-- A mapping that stands for a scalar where a date belongs. -/
  | date {pairs : List (NodeId × NodeId)} {text : String}
    (hc : (nodeIn nodes id).content = .mapping pairs) (hx : TextOf nodes id text) :
    Unfit nodes id .timestamp (.textExpected "list")
  /-- A mapping that comes back to itself where a scalar belongs. -/
  | endless {form : Form} (hs : form.isCollection = false) (h : Endless nodes id) :
    Unfit nodes id form .endless

/-- The nodes become others by merging into one mapping. -/
def Flattens (nodes nodes' : Array Node) : Prop :=
  ∃ id s s', (Loader.flatten id).run s = .ok ((), s') ∧ s.nodes = nodes ∧ s'.nodes = nodes'

/-- After some merging, the tag of a node asks for a form in which the node cannot be read, and this is
the fault. -/
def Unreadable (nodes : Array Node) (f : Fault) : Prop :=
  ∃ nodes' id form, ReflTransGen Flattens nodes nodes' ∧
    Form.ofTag? (nodeIn nodes' id).tag = some form ∧ Unfit nodes' id form f

theorem Unreadable.of_flattens {nodes nodes' : Array Node} {f : Fault}
    (h : ReflTransGen Flattens nodes nodes') (hf : Unreadable nodes' f) : Unreadable nodes f := by
  obtain ⟨nodes'', id, form, h', hrest⟩ := hf
  exact ⟨nodes'', id, form, h.trans h', hrest⟩

theorem Unfit.unreadable {nodes : Array Node} {id : NodeId} {form : Form} {f : Fault}
    (ht : Form.ofTag? (nodeIn nodes id).tag = some form) (h : Unfit nodes id form f) :
    Unreadable nodes f :=
  ⟨nodes, id, form, .refl, ht, h⟩

/-! ## What becomes of nodes -/

/-- The pairs of a mapping; other nodes have none. -/
def Node.pairs (n : Node) : List (NodeId × NodeId) :=
  match n.content with
  | .mapping pairs => pairs
  | _ => []

/-- The pairs that do not merge other mappings into theirs. -/
def ownPairs (nodes : Array Node) (pairs : List (NodeId × NodeId)) : List (NodeId × NodeId) :=
  pairs.filter fun p => (nodeIn nodes p.1).tag != mergeTag

/-- What merging may make of a node: a key that stands for a whole mapping becomes a text, and a
mapping gets other pairs in front of its own. -/
structure Node.Settles (nodes : Array Node) (n n' : Node) : Prop where
  tag : n'.tag = n.tag ∨ (n.tag = valueTag ∧ n'.tag = textTag)
  content : n'.content = n.content ∨ ∃ pairs pairs', n.content = .mapping pairs ∧
    n'.content = .mapping pairs' ∧ ownPairs nodes pairs <:+ ownPairs nodes pairs'

theorem Node.settles_refl (nodes : Array Node) (n : Node) : n.Settles nodes n :=
  ⟨.inl rfl, .inl rfl⟩

theorem Node.Settles.trans {nodes : Array Node} {n n' n'' : Node} (h : n.Settles nodes n')
    (h' : n'.Settles nodes n'') : n.Settles nodes n'' := by
  refine ⟨?_, ?_⟩
  · rcases h'.tag with ht | ⟨hv, ht⟩
    · rw [ht]
      exact h.tag
    · rcases h.tag with ht' | ⟨-, ht'⟩
      · exact .inr ⟨ht' ▸ hv, ht⟩
      · exact absurd (ht'.symm.trans hv) (by decide)
  · rcases h'.content with hc | ⟨pairs, pairs', hp, hp', hown⟩
    · rw [hc]
      exact h.content
    · rcases h.content with hc | ⟨pairs₀, pairs₁, hp₀, hp₁, hown₀⟩
      · exact .inr ⟨pairs, pairs', hc ▸ hp, hp', hown⟩
      · obtain rfl : pairs₁ = pairs := Content.mapping.inj (hp₁.symm.trans hp)
        exact .inr ⟨pairs₀, pairs', hp₀, hp', hown₀.trans hown⟩

/-- Where a node is replaced, every number has the node that it had, or the new one. -/
theorem nodeIn_setIfInBounds (nodes : Array Node) (id id' : NodeId) (node : Node) :
    nodeIn (nodes.setIfInBounds id node) id' = nodeIn nodes id' ∨
      (id = id' ∧ nodeIn (nodes.setIfInBounds id node) id' = node) := by
  unfold nodeIn
  by_cases hid : id = id'
  · subst hid
    by_cases hlt : id < nodes.size
    · exact .inr ⟨rfl, by simp [Array.getD_eq_getD_getElem?, hlt]⟩
    · exact .inl (by simp [Array.getD_eq_getD_getElem?, hlt])
  · exact .inl (by simp [Array.getD_eq_getD_getElem?, Array.getElem?_setIfInBounds_ne hid])

/-- The nodes of the second state come from those of the first by merging. -/
structure Loading.Leads (s s' : Loading) : Prop where
  size : s'.nodes.size = s.nodes.size
  settles : ∀ id, (nodeIn s.nodes id).Settles s.nodes (nodeIn s'.nodes id)

namespace Loading

variable {s s' s'' : Loading}

theorem leads_refl (s : Loading) : s.Leads s :=
  ⟨rfl, fun _ => Node.settles_refl _ _⟩

/-- The keys that merge are the same before and after. -/
theorem Leads.tag_eq_merge_iff (h : s.Leads s') (id : NodeId) :
    (nodeIn s'.nodes id).tag = mergeTag ↔ (nodeIn s.nodes id).tag = mergeTag := by
  rcases (h.settles id).tag with ht | ⟨hv, ht⟩
  · rw [ht]
  · rw [hv, ht]
    decide

theorem Leads.ownPairs_eq (h : s.Leads s') : ownPairs s'.nodes = ownPairs s.nodes := by
  funext pairs
  refine List.filter_congr fun p _ => ?_
  rw [Bool.eq_iff_iff, bne_iff_ne, bne_iff_ne, not_iff_not]
  exact h.tag_eq_merge_iff p.1

theorem Leads.trans (h : s.Leads s') (h' : s'.Leads s'') : s.Leads s'' := by
  refine ⟨h'.size.trans h.size, fun id => (h.settles id).trans ?_⟩
  obtain ⟨htag, hcontent⟩ := h'.settles id
  rw [h.ownPairs_eq] at hcontent
  exact ⟨htag, hcontent⟩

theorem leads_of_nodes (h : s'.nodes = s.nodes) : s.Leads s' :=
  ⟨by rw [h], fun id => h ▸ Node.settles_refl _ _⟩

/-- Replacing a node by what merging makes of it. -/
theorem Leads.setNode (h : s.Leads s') {id : NodeId} {node : Node}
    (hn : (nodeIn s.nodes id).Settles s.nodes node) :
    s.Leads { s' with nodes := s'.nodes.setIfInBounds id node } := by
  refine ⟨by simp [h.size], fun id' => ?_⟩
  rcases nodeIn_setIfInBounds s'.nodes id id' node with he | ⟨rfl, he⟩
  · rw [he]
    exact h.settles id'
  · rw [he]
    exact hn

end Loading

/-! ## Steps -/

namespace Loader

variable {α β : Type} {s s' : Loading} {x : Loader α} {f : α → Loader β}

/-- What a sort of steps does to the nodes, and which faults it has.  States with the same nodes are
the same to it, and a fault that is due to later nodes is due to earlier ones. -/
structure Course where
  reaches : Loading → Loading → Prop
  blames : Loading → Fault → Prop
  of_nodes : ∀ {s s' : Loading}, s'.nodes = s.nodes → reaches s s'
  trans : ∀ {s s' s'' : Loading}, reaches s s' → reaches s' s'' → reaches s s''
  of_reaches : ∀ {s s' : Loading} {f : Fault}, reaches s s' → blames s' f → blames s f

/-- From the state, the step goes on as the course says, and so do its faults. -/
def Follows (c : Course) (s : Loading) (x : Loader α) : Prop :=
  Meets (x.run s) (fun r => c.reaches s r.2) (c.blames s)

section Course

variable {c : Course}

theorem follows_pure (a : α) : Follows c s (pure a) :=
  meets_pure (c.of_nodes rfl)

theorem Follows.bind (hx : Follows c s x) (hf : ∀ a s', c.reaches s s' → Follows c s' (f a)) :
    Follows c s (x >>= f) := by
  unfold Follows
  rw [StateT.run_bind]
  exact Meets.bind hx fun r hr =>
    (hf r.1 r.2 hr).imp (fun r' hr' => c.trans hr hr') fun fault hfault => c.of_reaches hr hfault

theorem follows_problem (what : Problem) (node : Node) : Follows c s (problem what node : Loader α) :=
  meets_problem

theorem follows_problemWithin (activity : Activity) (outer : Node) (what : Problem) (node : Node) :
    Follows c s (problemWithin activity outer what node : Loader α) :=
  meets_problem

theorem follows_get_bind {f : Loading → Loader β} (h : Follows c s (f s)) : Follows c s (get >>= f) :=
  h

theorem follows_nodeAt_bind {id : NodeId} {f : Node → Loader β}
    (h : Follows c s (f (nodeIn s.nodes id))) : Follows c s (nodeAt id >>= f) :=
  h

/-- A change that leaves the nodes alone. -/
theorem follows_modify {change : Loading → Loading} (h : (change s).nodes = s.nodes) :
    Follows c s (modify change) :=
  meets_ok (c.of_nodes h)

theorem follows_set (h : s'.nodes = s.nodes) : Follows c s (set s') :=
  meets_ok (c.of_nodes h)

theorem follows_mapM {f : α → Loader β} (h : ∀ a s, Follows c s (f a)) :
    ∀ (as : List α) (s : Loading), Follows c s (as.mapM f)
  | [], s => by
    rw [List.mapM_nil]
    exact follows_pure _
  | a :: as, s => by
    rw [List.mapM_cons]
    exact (h a s).bind fun b s₁ _ => (follows_mapM h as s₁).bind fun bs s₂ _ => follows_pure _

theorem follows_foldlM {f : β → α → Loader β} (h : ∀ b a s, Follows c s (f b a)) :
    ∀ (as : List α) (b : β) (s : Loading), Follows c s (as.foldlM f b)
  | [], b, s => follows_pure b
  | a :: as, b, s => by
    rw [List.foldlM_cons]
    exact (h b a s).bind fun b' s₁ _ => follows_foldlM h as b' s₁

/-- The pairs of a mapping are looked up in the same state. -/
theorem run_mergedPairs (id : NodeId) (s : Loading) :
    (mergedPairs id).run s = .ok ((nodeIn s.nodes id).pairs, s) := by
  have hnode : (nodeAt id).run s = .ok (nodeIn s.nodes id, s) := rfl
  rw [mergedPairs, StateT.run_bind, hnode]
  unfold Node.pairs
  dsimp only [bind, Except.bind]
  cases (nodeIn s.nodes id).content <;> rfl

theorem follows_mergedPairs (id : NodeId) (s : Loading) : Follows c s (mergedPairs id) := by
  unfold Follows
  rw [run_mergedPairs]
  exact meets_ok (c.of_nodes rfl)

theorem follows_mergedPairs_bind {id : NodeId} {f : List (NodeId × NodeId) → Loader β}
    (h : Follows c s (f (nodeIn s.nodes id).pairs)) : Follows c s (mergedPairs id >>= f) := by
  unfold Follows
  rw [StateT.run_bind, run_mergedPairs]
  exact h

end Course

/-! ## Merging -/

/-- Merging changes nodes as `Leads` says, and has no faults. -/
def Course.merging : Course where
  reaches := Loading.Leads
  blames _ _ := False
  of_nodes := Loading.leads_of_nodes
  trans := Loading.Leads.trans
  of_reaches _ h := h

theorem follows_setNode {id : NodeId} {node : Node} (h : (nodeIn s.nodes id).Settles s.nodes node) :
    Follows .merging s (setNode id node) :=
  meets_ok ((Loading.leads_refl s).setNode h)

theorem follows_settleKey (key : NodeId) (s : Loading) : Follows .merging s (settleKey key) := by
  refine follows_nodeAt_bind ?_
  split
  · next h => exact follows_setNode ⟨.inr ⟨beq_iff_eq.mp h, rfl⟩, .inl rfl⟩
  · exact follows_pure _

/-- The node is a mapping. -/
def IsMapping (s : Loading) (id : NodeId) : Prop :=
  ∃ pairs, (nodeIn s.nodes id).content = .mapping pairs

theorem IsMapping.leads {id : NodeId} (h : IsMapping s id) (hs : s.Leads s') : IsMapping s' id := by
  obtain ⟨pairs, hp⟩ := h
  rcases (hs.settles id).content with hc | ⟨_, pairs', _, hp', -⟩
  · exact ⟨pairs, hc.trans hp⟩
  · exact ⟨pairs', hp'⟩

/-- A mapping with other pairs, its own at the end. -/
theorem IsMapping.settles {id : NodeId} (h : IsMapping s id) {pairs : List (NodeId × NodeId)}
    (hown : ownPairs s.nodes (nodeIn s.nodes id).pairs <:+ ownPairs s.nodes pairs) :
    (nodeIn s.nodes id).Settles s.nodes { nodeIn s.nodes id with content := .mapping pairs } := by
  obtain ⟨pairs₀, hp⟩ := h
  refine ⟨.inl rfl, .inr ⟨pairs₀, pairs, hp, rfl, ?_⟩⟩
  rwa [Node.pairs, hp] at hown

/-- Whether a pair merges, in terms of its key. -/
theorem isMerge_iff {nodes : Array Node} {p : NodeId × NodeId} :
    isMerge nodes p = true ↔ (nodeIn nodes p.1).tag = mergeTag := by
  unfold isMerge nodeIn
  by_cases hlt : p.1 < nodes.size
  · simp [Array.getD_eq_getD_getElem?, hlt]
  · simp [Array.getD_eq_getD_getElem?, hlt]
    decide

/-- Taking a merging pair away leaves the others. -/
theorem ownPairs_eraseIdx {nodes : Array Node} {pairs : List (NodeId × NodeId)} {p : NodeId × NodeId}
    (h : pairs[pairs.findIdx (isMerge nodes)]? = some p) :
    ownPairs nodes (pairs.eraseIdx (pairs.findIdx (isMerge nodes))) = ownPairs nodes pairs := by
  induction pairs with
  | nil => rfl
  | cons q pairs ih =>
    by_cases hq : isMerge nodes q = true
    · have hzero : (q :: pairs).findIdx (isMerge nodes) = 0 := by simp [List.findIdx_cons, hq]
      rw [hzero, List.eraseIdx_zero, List.tail_cons, ownPairs, ownPairs,
        List.filter_cons_of_neg (by simpa using isMerge_iff.mp hq)]
    · have hsucc : (q :: pairs).findIdx (isMerge nodes) = pairs.findIdx (isMerge nodes) + 1 := by
        simp [List.findIdx_cons, hq]
      rw [hsucc, List.getElem?_cons_succ] at h
      have hne := mt isMerge_iff.mpr hq
      rw [hsucc, List.eraseIdx_cons_succ, ownPairs, ownPairs, List.filter_cons_of_pos (by simpa using hne),
        List.filter_cons_of_pos (by simpa using hne)]
      exact congrArg (q :: ·) (ih h)

/-- The last step of merging: keys are settled, and the pairs that were collected are put in front.
The node is the one from before the keys were settled. -/
theorem follows_putPairs {id : NodeId} (h : IsMapping s id) (merged : List (NodeId × NodeId)) :
    Follows .merging s (do
      (nodeIn s.nodes id).pairs.forM fun (key, _) => settleKey key
      if !merged.isEmpty then
        setNode id
          { nodeIn s.nodes id with content := .mapping (merged ++ (nodeIn s.nodes id).pairs) }) := by
  have hkeys : ∀ (pairs : List (NodeId × NodeId)) (s : Loading),
      Follows .merging s (pairs.forM fun (key, _) => settleKey key) := by
    intro pairs
    induction pairs with
    | nil => exact fun s => follows_pure ()
    | cons p pairs ih => exact fun s => (follows_settleKey p.1 s).bind fun _ s₁ _ => ih s₁
  unfold Follows
  rw [StateT.run_bind]
  refine Meets.bind (hkeys _ s) fun r hr => ?_
  split
  · refine meets_ok (hr.setNode (h.settles ?_))
    rw [ownPairs, ownPairs, List.filter_append]
    exact List.suffix_append _ _
  · exact meets_ok hr

theorem follows_flattenWith : ∀ (limit : Nat) {id : NodeId} {s : Loading}
    (merged : List (NodeId × NodeId)), IsMapping s id → Follows .merging s (flattenWith id limit merged)
  | 0, id, s, merged, h => follows_pure _
  | limit + 1, id, s, merged, h => by
    rw [flattenWith]
    refine follows_nodeAt_bind (follows_mergedPairs_bind (follows_get_bind ?_))
    dsimp only
    split
    · exact follows_putPairs h merged
    · next other hfound =>
      have hown := ownPairs_eraseIdx hfound
      refine (follows_setNode (h.settles (hown ▸ List.suffix_rfl))).bind fun _ s₁ hs₁ =>
        follows_nodeAt_bind ?_
      have hnext : ∀ {s₂ : Loading} (merged : List (NodeId × NodeId)), s₁.Leads s₂ →
          Follows .merging s₂ (flattenWith id limit merged) := fun merged hs₂ =>
        follows_flattenWith limit merged (h.leads (hs₁.trans hs₂))
      split
      · next pairs' hother =>
        refine (follows_flattenWith limit [] ⟨pairs', hother⟩).bind fun _ s₂ hs₂ => ?_
        exact follows_mergedPairs_bind (hnext _ hs₂)
      · refine (follows_mapM (fun item s₂ => follows_nodeAt_bind ?_) _ s₁).bind fun _ s₂ hs₂ =>
          hnext _ hs₂
        split
        · next pairs' hitem =>
          exact (follows_flattenWith limit [] ⟨pairs', hitem⟩).bind fun _ s₃ _ =>
            follows_mergedPairs item s₃
        · exact follows_problemWithin _ _ _ _
      · exact follows_problemWithin _ _ _ _

theorem follows_flatten {id : NodeId} (h : IsMapping s id) : Follows .merging s (flatten id) :=
  follows_get_bind (follows_flattenWith _ [] h)

/-! ## Scalars -/

/-- Turning nodes into values changes them by merging, and its faults are due to nodes that cannot be
read. -/
def Course.loading : Course where
  reaches s s' := ReflTransGen Flattens s.nodes s'.nodes
  blames s := Unreadable s.nodes
  of_nodes h := h ▸ .refl
  trans := ReflTransGen.trans
  of_reaches := Unreadable.of_flattens

theorem loads_ofFault {y : Except Fault α} (h : ∀ fault, y = .error fault → Unreadable s.nodes fault) :
    Follows .loading s (ofFault y) := by
  cases y with
  | ok a => exact follows_pure a
  | error fault => exact meets_fault (h fault rfl)

/-- What reads the text of a node in a form of scalars starts from the same state. -/
theorem loads_text_bind {id : NodeId} {form : Form} (hs : form.isCollection = false)
    (ht : Form.ofTag? (nodeIn s.nodes id).tag = some form) {read : String → Loader β}
    (h : ∀ text, TextOf s.nodes id text → Follows .loading s (read text)) :
    Follows .loading s ((do scalarText ((← get).nodes.size + 1) (nodeIn s.nodes id)) >>= read) := by
  have htext := (meets_scalarText s (s.nodes.size + 1) id).imp (fun _ hr => hr) fun fault hf =>
    (hf.1 ▸ Unfit.unreadable ht (.endless hs hf.2.endless) : Unreadable s.nodes fault)
  refine htext.bind fun r hr => ?_
  rcases r with ⟨text, s'⟩
  obtain ⟨hs, htext⟩ := hr
  obtain rfl : s = s' := hs.symm
  exact h text htext

/-- A node in a form of scalars. -/
theorem loads_scalar? {id : NodeId} {form : Form}
    (ht : Form.ofTag? (nodeIn s.nodes id).tag = some form) :
    Follows .loading s (scalar? id form (nodeIn s.nodes id)) := by
  have hread : ∀ {γ : Type} {read : String → Except Fault γ} {wrap : γ → Option Scalar},
      form.isCollection = false →
      (∀ text fault, read text = .error fault → form.Refuses text fault) →
      Follows .loading s ((do scalarText ((← get).nodes.size + 1) (nodeIn s.nodes id)) >>=
        fun text => do return wrap (← ofFault (read text))) := fun hs hrefuses =>
    loads_text_bind hs ht fun text hx =>
      (loads_ofFault fun fault hf => Unfit.unreadable ht (.text hx (hrefuses text fault hf))).bind
        fun _ _ _ => follows_pure _
  cases form with
  | null => exact loads_text_bind rfl ht fun text _ => follows_pure _
  | bool => exact hread rfl fun text fault hf => hf
  | int => exact hread rfl fun text fault hf => hf
  | float => exact hread rfl fun text fault hf => ⟨_, hf⟩
  | octets =>
    refine loads_text_bind rfl ht fun text _ => ?_
    split
    · exact follows_pure _
    · exact follows_problem _ _
  | timestamp =>
    refine loads_text_bind rfl ht fun text hx => Follows.bind ?_ fun _ _ _ => follows_pure _
    unfold timestamp
    split
    · exact loads_ofFault fun fault hf => Unfit.unreadable ht (.text hx hf)
    · next hscalar =>
      obtain ⟨pairs, hc⟩ := hx.exists_mapping hscalar
      exact meets_fault (Unfit.unreadable ht (.date hc hx))
  | text => exact loads_text_bind rfl ht fun text _ => follows_pure _
  | code typing => exact loads_text_bind rfl ht fun text _ => follows_pure _
  | list => exact follows_pure _
  | map => exact follows_pure _
  | set => exact follows_pure _
  | pairs ordered => exact follows_pure _

/-! ## Collections -/

theorem loads_value (id : NodeId) (s : Loading) : Follows .loading s (value id) := by
  refine follows_get_bind ?_
  dsimp only
  split
  · exact follows_pure _
  · refine follows_nodeAt_bind ?_
    split
    · exact follows_problem _ _
    · next form ht =>
      refine (loads_scalar? ht).bind fun scalar s₁ _ => ?_
      cases scalar with
      | some scalar => exact (follows_modify rfl).bind fun _ _ _ => follows_pure _
      | none =>
        refine follows_get_bind (Follows.bind (follows_set ?_) fun _ _ _ => follows_pure _)
        rfl

/-- Merging into a mapping is one step from nodes to others. -/
theorem loads_flatten {id : NodeId} (h : IsMapping s id) : Follows .loading s (flatten id) where
  ensures r hr := .single ⟨id, s, r.2, hr, rfl, rfl⟩
  blames f hf := ((follows_flatten h).blames f hf).elim

theorem loads_entries (id : NodeId) (s : Loading) : Follows .loading s (entries id) := by
  refine follows_nodeAt_bind ?_
  dsimp only
  split
  · next pairs hc =>
    refine (loads_flatten ⟨pairs, hc⟩).bind fun _ s₁ _ => follows_mergedPairs_bind ?_
    refine follows_foldlM (fun entries p s₂ => ?_) _ [] s₁
    refine (loads_value p.1 s₂).bind fun k s₃ _ => ?_
    cases k with
    | container address => exact follows_nodeAt_bind (follows_problemWithin _ _ _ _)
    | scalar key =>
      exact (loads_value p.2 s₃).bind fun v s₄ _ => follows_get_bind (follows_pure _)
  · exact follows_problem _ _

theorem loads_pair (ordered : Bool) (outer : Node) (id : NodeId) (s : Loading) :
    Follows .loading s (pair ordered outer id) := by
  refine follows_nodeAt_bind ?_
  split
  · next key other _ =>
    refine (loads_value key s).bind fun k s₁ _ => (loads_value other s₁).bind fun v s₂ _ => ?_
    refine follows_get_bind (Follows.bind (follows_set ?_) fun _ _ _ => follows_pure _)
    rfl
  · exact follows_problemWithin _ _ _ _
  · exact follows_problemWithin _ _ _ _

theorem loads_contents (id : NodeId) (form : Form) (s : Loading) :
    Follows .loading s (contents id form) := by
  refine follows_nodeAt_bind ?_
  split
  · exact (loads_entries id s).bind fun _ _ _ => follows_pure _
  · exact (loads_entries id s).bind fun _ _ _ => follows_pure _
  · split
    · exact (follows_mapM (fun item s => loads_pair _ _ item s) _ s).bind fun _ _ _ => follows_pure _
    · exact follows_problemWithin _ _ _ _
  · split
    · exact (follows_mapM loads_value _ s).bind fun _ _ _ => follows_pure _
    · exact follows_problem _ _

theorem loads_fillAll : ∀ (limit : Nat) (s : Loading), Follows .loading s (fillAll limit)
  | 0, s => follows_pure _
  | limit + 1, s => by
    rw [fillAll]
    refine follows_get_bind ?_
    split
    · exact follows_pure _
    · next id form address rest _ =>
      refine Follows.bind (follows_modify ?_) fun _ s₁ _ => ?_
      · rfl
      refine (loads_contents id form s₁).bind fun container s₂ _ => ?_
      refine Follows.bind (follows_modify ?_) fun _ s₃ _ => loads_fillAll limit s₃
      rfl

theorem loads_root (id : NodeId) (s : Loading) : Follows .loading s (root id) :=
  (loads_value id s).bind fun _ s₁ _ => follows_get_bind
    ((loads_fillAll _ s₁).bind fun _ _ _ => follows_pure _)

end Loader

/-- **A fault in the value of a text is due to the text.** It has an overlong number or escape, or one
of its nodes has a tag that asks for a form in which the node cannot be read. -/
theorem fault_of_valueOfText {text : List Char} {f : Fault}
    (h : valueOfText text = .error (.fault f)) :
    Overlong text f ∨
      ∃ nodes, NodeGraph.ofTokens (TokenStream.ofText text) = .ok nodes ∧ Unreadable nodes.nodes f := by
  unfold valueOfText at h
  cases hnodes : NodeGraph.ofTokens (TokenStream.ofText text) with
  | error trouble =>
    rw [hnodes] at h
    cases h
    exact .inl (overlong_of_ofText (fault_of_ofTokens hnodes))
  | ok nodes =>
    rw [hnodes] at h
    refine .inr ⟨nodes, rfl, ?_⟩
    rcases nodes with ⟨nodes, _ | id⟩
    · cases h
    · have hroot := Loader.loads_root id { nodes := nodes }
      have hdocument : Meets ((Loader.root id).run { nodes := nodes } >>= fun r =>
          pure (⟨r.2.graph, r.1⟩ : Document)) (fun _ => True) (Unreadable nodes) :=
        Meets.bind hroot fun _ _ => meets_pure trivial
      exact hdocument.blames f h

end Componentry.Yaml
