import Componentry.Proofs.Document.Parts
import Componentry.Proofs.Yaml.Interpretation
import Componentry.Proofs.Yaml.Merging

/-!
# Filling containers

Loading fills the table of values and the containers bit by bit.  A value that is in the table stays, and
so does a container that was filled (`Loading.Grows`); every container of a node is waiting or was taken
up once (`Sound`).  The rounds of `fillAll` are as many as there can be containers of nodes.

**Main statement.** What is loaded from a node interprets the nodes (`interprets_of_root`).
-/

namespace Componentry.Yaml

variable {nodes : Array Node} {s s' s'' : Loading} {id : NodeId}

/-! ## Growth -/

/-- Values and containers of the first state are still there in the second. -/
structure Loading.Grows (s s' : Loading) : Prop where
  lookup : ∀ {id v}, s.values.lookup id = some v → s'.values.lookup id = some v
  get? : ∀ {a c}, s.graph.get? a = some c → s'.graph.get? a = some c

theorem Loading.grows_refl (s : Loading) : s.Grows s :=
  ⟨fun h => h, fun h => h⟩

theorem Loading.Grows.trans (h : s.Grows s') (h' : s'.Grows s'') : s.Grows s'' :=
  ⟨fun hv => h'.lookup (h.lookup hv), fun hc => h'.get? (h.get? hc)⟩

/-- The value that a node has got. -/
abbrev Loading.valueOf (s : Loading) (id : NodeId) : Option Value :=
  s.values.lookup id

theorem IsPair.grows {v : Value} (h : IsPair nodes s.graph s.valueOf id v) (hs : s.Grows s') :
    IsPair nodes s'.graph s'.valueOf id v := by
  obtain ⟨pairs, merged, p, a, k, w, hp, hm, hone, hk, hw, ha, ht⟩ := h
  exact ⟨pairs, merged, p, a, k, w, hp, hm, hone, hs.lookup hk, hs.lookup hw, ha, hs.get? ht⟩

/-! ## Sound states -/

/-- The form of a node after some merging is a form of it. -/
theorem formOf_of_leads {form : Form} (h : Loading.Leads { nodes } s)
    (hf : Form.ofTag? (nodeIn s.nodes id).tag = some form) : FormOf nodes id form := by
  rcases (h.settles id).tag with ht | ⟨hv, ht⟩
  · exact .inl (ht ▸ hf)
  · rw [ht, ofTag?_textTag] at hf
    exact .inr ⟨hv, (Option.some.inj hf).symm⟩

/-- Every value in the table is one of its node, and every container of a node is among those taken up
or those waiting. -/
structure Sound (nodes : Array Node) (taken : List (NodeId × Form × Address)) (s : Loading) : Prop where
  leads : Loading.Leads { nodes } s
  pairs : Loader.AllPairs (PairOf nodes) s
  scalar : ∀ {id k}, s.valueOf id = some (.scalar k) → ∃ form, FormOf nodes id form ∧
    form.isCollection = false ∧
      ∀ text, (nodeIn nodes id).content = .scalar text → form.Reads (id + 1) text k
  container : ∀ {id a}, s.valueOf id = some (.container a) → ∃ form, (id, form, a) ∈ taken ++ s.waiting
  entry : ∀ {id form a}, (id, form, a) ∈ taken ++ s.waiting →
    s.valueOf id = some (.container a) ∧ FormOf nodes id form ∧ form.isCollection = true
  /-- The containers are no tuples, which are not filled later. -/
  get? : ∀ {id form a}, (id, form, a) ∈ taken ++ s.waiting →
    ∃ c, s.graph.get? a = some c ∧ c.kind ≠ .tuple
  nodup : ((taken ++ s.waiting).map (·.2.2)).Nodup

variable {taken : List (NodeId × Form × Address)}

theorem sound_init (nodes : Array Node) : Sound nodes [] { nodes } where
  leads := Loading.leads_refl _
  pairs := fun id _ hp => ⟨id, hp⟩
  scalar := by rintro id k ⟨⟩
  container := by rintro id a ⟨⟩
  entry := by rintro id form a ⟨⟩
  get? := by rintro id form a ⟨⟩
  nodup := List.nodup_nil

/-- A node with a value is no key that merges. -/
theorem Sound.tag_ne (h : Sound nodes taken s) {v : Value} (hv : s.valueOf id = some v) :
    (nodeIn nodes id).tag ≠ mergeTag := by
  cases v with
  | scalar k =>
    obtain ⟨form, hf, -⟩ := h.scalar hv
    exact hf.tag_ne
  | container a =>
    obtain ⟨form, he⟩ := h.container hv
    exact (h.entry he).2.1.tag_ne

theorem Sound.pairOf (h : Sound nodes taken s) {pairs : List (NodeId × NodeId)}
    (hc : (nodeIn s.nodes id).content = .mapping pairs) {p : NodeId × NodeId} (hp : p ∈ pairs) :
    PairOf nodes p :=
  h.pairs id p (Node.pairs_eq hc ▸ hp)

/-- Merging does not touch what is sound about the rest. -/
theorem Sound.of_leads (h : Sound nodes taken s) (hl : s.Leads s')
    (hp : Loader.AllPairs (PairOf nodes) s') (hv : s'.values = s.values)
    (hg : s'.graph = s.graph) (hw : s'.waiting = s.waiting) : Sound nodes taken s' where
  leads := h.leads.trans hl
  pairs := hp
  scalar := by
    unfold Loading.valueOf
    rw [hv]
    exact h.scalar
  container := by
    unfold Loading.valueOf
    rw [hv, hw]
    exact h.container
  entry := by
    unfold Loading.valueOf
    rw [hv, hw]
    exact h.entry
  get? := by
    rw [hg, hw]
    exact h.get?
  nodup := hw ▸ h.nodup

/-! ## New values -/

theorem lookup_of_none {v w : Value} (hnew : s.valueOf id = none) {id' : NodeId}
    (h : s.valueOf id' = some w) : ((id, v) :: s.values).lookup id' = some w := by
  have hne : id' ≠ id := by
    rintro rfl
    cases hnew.symm.trans h
  rw [List.lookup_cons, beq_false_of_ne hne]
  exact h

/-- An entry of the longer table is the new one or an old one. -/
theorem eq_or_of_lookup_cons {v w : Value} {id' : NodeId}
    (h : ((id, v) :: s.values).lookup id' = some w) :
    (id' = id ∧ v = w) ∨ s.valueOf id' = some w := by
  rw [List.lookup_cons] at h
  split at h
  · next he => exact .inl ⟨beq_iff_eq.mp he, Option.some.inj h⟩
  · exact .inr h

/-- The state with a scalar for a node. -/
theorem Sound.addScalar (h : Sound nodes taken s) (hnew : s.valueOf id = none) {form : Form} {k : Scalar}
    (hf : FormOf nodes id form) (hs : form.isCollection = false)
    (hr : ∀ text, (nodeIn nodes id).content = .scalar text → form.Reads (id + 1) text k) :
    Sound nodes taken { s with values := (id, .scalar k) :: s.values } where
  leads := h.leads.trans (Loading.leads_of_nodes rfl)
  pairs := h.pairs
  scalar hv := by
    rcases eq_or_of_lookup_cons hv with ⟨rfl, hk⟩ | hv
    · cases hk
      exact ⟨form, hf, hs, hr⟩
    · exact h.scalar hv
  container hv := by
    rcases eq_or_of_lookup_cons hv with ⟨-, hk⟩ | hv
    · cases hk
    · exact h.container hv
  entry he := ⟨lookup_of_none hnew (h.entry he).1, (h.entry he).2⟩
  get? := h.get?
  nodup := h.nodup

/-- The address of a container that is there is not the next one. -/
theorem ne_of_get? {g : Graph} {c : Container} {a : Address} (h : g.get? a = some c) (c' : Container) :
    a ≠ (g.add c').2 := by
  rintro rfl
  unfold Graph.get? Graph.add at h
  simp at h

/-- The state with an empty container for a node, which waits to be filled. -/
theorem Sound.addContainer (h : Sound nodes taken s) (hnew : s.valueOf id = none) {form : Form}
    {c : Container} (hf : FormOf nodes id form) (hs : form.isCollection = true) (hc : c.kind ≠ .tuple) :
    Sound nodes taken { s with
      graph := (s.graph.add c).1
      values := (id, .container (s.graph.add c).2) :: s.values
      waiting := s.waiting ++ [(id, form, (s.graph.add c).2)] } where
  leads := h.leads.trans (Loading.leads_of_nodes rfl)
  pairs := h.pairs
  scalar hv := by
    rcases eq_or_of_lookup_cons hv with ⟨-, hk⟩ | hv
    · cases hk
    · exact h.scalar hv
  container hv := by
    dsimp only
    rw [← List.append_assoc]
    rcases eq_or_of_lookup_cons hv with ⟨rfl, hk⟩ | hv
    · cases hk
      exact ⟨form, List.mem_append_right _ List.mem_cons_self⟩
    · obtain ⟨form', he⟩ := h.container hv
      exact ⟨form', List.mem_append_left _ he⟩
  entry he := by
    rw [← List.append_assoc] at he
    rcases List.mem_append.mp he with he | he
    · exact ⟨lookup_of_none hnew (h.entry he).1, (h.entry he).2⟩
    · cases List.mem_singleton.mp he
      exact ⟨List.lookup_cons_self, hf, hs⟩
  get? he := by
    rw [← List.append_assoc] at he
    rcases List.mem_append.mp he with he | he
    · obtain ⟨c', hget, hk⟩ := h.get? he
      exact ⟨c', Graph.get?_add hget, hk⟩
    · cases List.mem_singleton.mp he
      exact ⟨c, Graph.get?_add_self _ _, hc⟩
  nodup := by
    dsimp only
    rw [← List.append_assoc, List.map_append, List.nodup_append]
    refine ⟨h.nodup, List.nodup_singleton _, fun a ha b hb => ?_⟩
    obtain ⟨⟨id', form', a'⟩, he, rfl⟩ := List.mem_map.mp ha
    obtain ⟨c', hget, -⟩ := h.get? he
    cases List.mem_singleton.mp hb
    exact ne_of_get? hget c

/-- The state with a container that belongs to no node. -/
theorem Sound.addTuple (h : Sound nodes taken s) (c : Container) :
    Sound nodes taken { s with graph := (s.graph.add c).1 } where
  leads := h.leads.trans (Loading.leads_of_nodes rfl)
  pairs := h.pairs
  scalar := h.scalar
  container := h.container
  entry := h.entry
  get? he := by
    obtain ⟨c', hget, hk⟩ := h.get? he
    exact ⟨c', Graph.get?_add hget, hk⟩
  nodup := h.nodup

/-! ## Steps -/

namespace Loader

variable {α β : Type} {x : Loader α} {f : α → Loader β}

/-- From a sound state the step gets to a sound state with the same values and more, and this holds of
what it returns there. -/
def SoundAt (nodes : Array Node) (taken : List (NodeId × Form × Address)) (s : Loading) (x : Loader α)
    (P : α → Loading → Prop) : Prop :=
  Sound nodes taken s → Ensures (x.run s) fun r => s.Grows r.2 ∧ Sound nodes taken r.2 ∧ P r.1 r.2

variable {P : α → Loading → Prop} {Q : β → Loading → Prop}

theorem soundAt_pure {a : α} (h : Sound nodes taken s → P a s) : SoundAt nodes taken s (pure a) P :=
  fun hs => ensures_pure ⟨Loading.grows_refl s, hs, h hs⟩

theorem SoundAt.bind (hx : SoundAt nodes taken s x P)
    (hf : ∀ a s', s.Grows s' → P a s' → SoundAt nodes taken s' (f a) Q) :
    SoundAt nodes taken s (x >>= f) Q := by
  intro hs
  rw [StateT.run_bind]
  refine (hx hs).bind fun r hr => ?_
  obtain ⟨hgrows, hsound, hp⟩ := hr
  refine (hf r.1 r.2 hgrows hp hsound).imp fun r' hr' => ?_
  exact ⟨hgrows.trans hr'.1, hr'.2⟩

/-- A step may count on the state being sound. -/
theorem soundAt_of (h : Sound nodes taken s → SoundAt nodes taken s x P) : SoundAt nodes taken s x P :=
  fun hs => h hs hs

theorem SoundAt.imp {Q : α → Loading → Prop} (h : SoundAt nodes taken s x P)
    (hq : Sound nodes taken s → ∀ a s', s.Grows s' → Sound nodes taken s' → P a s' → Q a s') :
    SoundAt nodes taken s x Q :=
  fun hs => (h hs).imp fun r hr => ⟨hr.1, hr.2.1, hq hs r.1 r.2 hr.1 hr.2.1 hr.2.2⟩

theorem soundAt_problem (what : Problem) (node : Node) :
    SoundAt nodes taken s (problem what node : Loader α) P :=
  fun _ => ensures_error _

theorem soundAt_problemWithin (activity : Activity) (outer : Node) (what : Problem) (node : Node) :
    SoundAt nodes taken s (problemWithin activity outer what node : Loader α) P :=
  fun _ => ensures_error _

theorem soundAt_get_bind {f : Loading → Loader β} (h : SoundAt nodes taken s (f s) Q) :
    SoundAt nodes taken s (get >>= f) Q :=
  h

theorem soundAt_nodeAt_bind {id : NodeId} {f : Node → Loader β}
    (h : SoundAt nodes taken s (f (nodeIn s.nodes id)) Q) :
    SoundAt nodes taken s (nodeAt id >>= f) Q :=
  h

theorem soundAt_mergedPairs_bind {id : NodeId} {f : List (NodeId × NodeId) → Loader β}
    (h : SoundAt nodes taken s (f (nodeIn s.nodes id).pairs) Q) :
    SoundAt nodes taken s (mergedPairs id >>= f) Q := by
  unfold SoundAt
  rw [StateT.run_bind, run_mergedPairs]
  exact h

/-- Items in turn, where what holds of each result stays. -/
theorem soundAt_mapM {f : α → Loader β} {R : α → β → Loading → Prop}
    (h : ∀ a s, SoundAt nodes taken s (f a) (R a))
    (hR : ∀ {a b s s'}, R a b s → Loading.Grows s s' → R a b s') : ∀ (as : List α) (s : Loading),
      SoundAt nodes taken s (as.mapM f) fun bs s' => List.Forall₂ (fun a b => R a b s') as bs
  | [], s => by
    rw [List.mapM_nil]
    exact soundAt_pure fun _ => .nil
  | a :: as, s => by
    rw [List.mapM_cons]
    refine (h a s).bind fun b s₁ _ hb => (soundAt_mapM h hR as s₁).bind fun bs s₂ hs₂ hbs => ?_
    exact soundAt_pure fun _ => .cons (hR hb hs₂) hbs

/-! ## The value of a node -/

/-- What is read from a text in a form: a scalar, unless the form is one of collections. -/
def ReadsFrom (id : NodeId) (form : Form) (s : Loading) (text : String) (x : Loader (Option Scalar)) :
    Prop :=
  Ensures (x.run s) fun r => r.2 = s ∧ r.1.isNone = form.isCollection ∧
    ∀ k, r.1 = some k → form.Reads (id + 1) text k

theorem readsFrom_some {form : Form} {text : String} {k : Scalar} (hs : form.isCollection = false)
    (hk : form.Reads (id + 1) text k) : ReadsFrom id form s text (pure (some k)) :=
  ensures_pure ⟨rfl, hs.symm, fun _ h => Option.some.inj h ▸ hk⟩

theorem readsFrom_ofFault {form : Form} {text : String} {γ : Type} {y : Except Fault γ}
    {wrap : γ → Scalar} (hs : form.isCollection = false)
    (hk : ∀ a, y = .ok a → form.Reads (id + 1) text (wrap a)) :
    ReadsFrom id form s text (do return some (wrap (← ofFault y))) := by
  cases y with
  | error fault => exact ensures_error _
  | ok a => exact readsFrom_some hs (hk a rfl)

/-- A node in a form of scalars is read in that form. -/
theorem ensures_scalar? (id : NodeId) (form : Form) (s : Loading) :
    Ensures ((scalar? id form (nodeIn s.nodes id)).run s) fun r =>
      r.2 = s ∧ r.1.isNone = form.isCollection ∧ ∀ k text, r.1 = some k →
        (nodeIn s.nodes id).content = .scalar text → form.Reads (id + 1) text k := by
  have hread : ∀ {next : String → Loader (Option Scalar)},
      (∀ text, ReadsFrom id form s text (next text)) →
      Ensures (((do scalarText ((← get).nodes.size + 1) (nodeIn s.nodes id)) >>= next).run s) fun r =>
        r.2 = s ∧ r.1.isNone = form.isCollection ∧ ∀ k text, r.1 = some k →
          (nodeIn s.nodes id).content = .scalar text → form.Reads (id + 1) text k := by
    intro next hnext
    refine Ensures.bind (meets_scalarText s (s.nodes.size + 1) id).ensures fun r hr => ?_
    obtain ⟨hs, htext⟩ := hr
    dsimp only
    rw [hs]
    refine (hnext r.1).imp fun r' hr' => ⟨hr'.1, hr'.2.1, fun k text hk hc => ?_⟩
    exact htext.eq hc ▸ hr'.2.2 k hk
  have hnone : form.isCollection = true →
      Ensures ((pure none : Loader (Option Scalar)).run s) fun r =>
        r.2 = s ∧ r.1.isNone = form.isCollection ∧ ∀ k text, r.1 = some k →
          (nodeIn s.nodes id).content = .scalar text → form.Reads (id + 1) text k :=
    fun hc => ensures_pure ⟨rfl, hc.symm, by rintro k text ⟨⟩⟩
  cases form with
  | null => exact hread fun text => readsFrom_some rfl rfl
  | bool => exact hread fun text => readsFrom_ofFault rfl fun b hb => ⟨b, hb, rfl⟩
  | int => exact hread fun text => readsFrom_ofFault rfl fun n hn => ⟨n, hn, rfl⟩
  | float => exact hread fun text => readsFrom_ofFault rfl fun x hx => ⟨x, hx, rfl⟩
  | octets =>
    refine hread fun text => ?_
    split
    · next b hb => exact readsFrom_some rfl ⟨b, hb, rfl⟩
    · exact ensures_error _
  | timestamp =>
    refine hread fun text => ?_
    unfold timestamp
    split
    · exact readsFrom_ofFault rfl fun k hk => hk
    · exact ensures_error _
  | text => exact hread fun text => readsFrom_some rfl rfl
  | code typing => exact hread fun text => readsFrom_some rfl rfl
  | list => exact hnone rfl
  | map => exact hnone rfl
  | set => exact hnone rfl
  | pairs ordered => exact hnone rfl

theorem kind_emptyContainer (form : Form) : (emptyContainer form).kind ≠ .tuple := by
  unfold emptyContainer
  split <;> decide

/-- The value of a node is in the table from then on. -/
theorem soundAt_value (id : NodeId) (s : Loading) :
    SoundAt nodes taken s (value id) fun v s' => s'.valueOf id = some v := by
  refine soundAt_get_bind ?_
  dsimp only
  split
  · next v hv => exact soundAt_pure fun _ => hv
  · next hnew =>
    refine soundAt_nodeAt_bind ?_
    split
    · exact soundAt_problem _ _
    · next form ht =>
      intro hs
      have hf := formOf_of_leads hs.leads ht
      rw [StateT.run_bind]
      refine (ensures_scalar? id form s).bind fun r hr => ?_
      obtain ⟨k, s'⟩ := r
      obtain ⟨rfl, hnone, hreads⟩ := hr
      cases k with
      | some k =>
        have hcontent : ∀ text, (nodeIn nodes id).content = .scalar text →
            (nodeIn s'.nodes id).content = .scalar text := by
          intro text hc
          rcases (hs.leads.settles id).content with he | ⟨pairs, _, hp, -⟩
          · exact he.trans hc
          · cases hc.symm.trans hp
        refine ensures_ok ⟨⟨fun hv => lookup_of_none hnew hv, fun hc => hc⟩, ?_, List.lookup_cons_self⟩
        exact hs.addScalar hnew hf hnone.symm fun text hc => hreads k text rfl (hcontent text hc)
      | none =>
        refine ensures_ok ⟨⟨fun hv => lookup_of_none hnew hv, Graph.get?_add⟩, ?_, List.lookup_cons_self⟩
        exact hs.addContainer hnew hf hnone.symm (kind_emptyContainer form)

/-! ## What containers are filled with -/

theorem soundAt_flatten {id : NodeId} (h : IsMapping s id) :
    SoundAt nodes taken s (flatten id) fun _ s' => IsMapping s' id := by
  intro hs r hr
  have hl := (follows_flatten h).ensures r hr
  obtain ⟨hrest, hpairs, -⟩ := merging_flatten id s hs.pairs r hr
  obtain ⟨hv, hgw⟩ := Prod.mk.inj hrest
  obtain ⟨hg, hw⟩ := Prod.mk.inj hgw
  refine ⟨⟨fun h => hv ▸ h, fun h => hg ▸ h⟩, hs.of_leads hl hpairs hv hg hw, h.leads hl⟩

/-- If each pair has values and its entry comes behind those from before, then so it is for all pairs of
a mapping. -/
theorem soundAt_insertEntries
    {step : List (Value × Value) → NodeId × NodeId → Loader (List (Value × Value))}
    (hstep : ∀ p es s, SoundAt nodes taken s (step (mapOf es) p) fun entries s' =>
      ∃ e : Scalar × Value, entries = mapOf (es ++ [e]) ∧
        s'.valueOf p.1 = some (.scalar e.1) ∧ s'.valueOf p.2 = some e.2) :
    ∀ (pairs : List (NodeId × NodeId)) (es : List (Scalar × Value)) (s : Loading),
    SoundAt nodes taken s (pairs.foldlM step (mapOf es)) fun entries s' =>
      ∃ es', entries = mapOf (es ++ es') ∧
        List.Forall₂ (fun p e => s'.valueOf p.1 = some (.scalar e.1) ∧ s'.valueOf p.2 = some e.2)
          pairs es'
  | [], es, s => soundAt_pure fun _ => ⟨[], by rw [List.append_nil], .nil⟩
  | p :: pairs, es, s => by
    rw [List.foldlM_cons]
    refine (hstep p es s).bind ?_
    rintro _ s₁ - ⟨e, rfl, hk, hv⟩
    refine (soundAt_insertEntries hstep pairs (es ++ [e]) s₁).imp fun _ _ s₂ hs₂ _ h => ?_
    obtain ⟨es', he, hes⟩ := h
    refine ⟨e :: es', ?_, .cons ⟨hs₂.lookup hk, hs₂.lookup hv⟩ hes⟩
    rw [he, List.append_assoc]
    rfl

theorem soundAt_entries (id : NodeId) (s : Loading) :
    SoundAt nodes taken s (entries id) fun entries s' =>
      ∃ es, HasEntries nodes s'.valueOf id es ∧ entries = mapOf es := by
  refine soundAt_nodeAt_bind ?_
  dsimp only
  split
  · next pairs hc =>
    refine (soundAt_flatten ⟨pairs, hc⟩).bind fun _ s₁ _ hmapping => soundAt_mergedPairs_bind ?_
    obtain ⟨pairs₁, hc₁⟩ := hmapping
    rw [Node.pairs_eq hc₁]
    refine (soundAt_insertEntries ?_ pairs₁ [] s₁).imp fun hs₁ entries s₂ _ hs₂ h => ?_
    · rintro ⟨key, other⟩ es s
      refine (soundAt_value key s).bind fun k s₁ _ hk => ?_
      cases k with
      | container a => exact soundAt_nodeAt_bind (soundAt_problemWithin _ _ _ _)
      | scalar k =>
        refine (soundAt_value other s₁).bind fun v s₂ hs₂ hv =>
          soundAt_get_bind (soundAt_pure fun _ => ?_)
        exact ⟨(k, v), insertEntry_mapOf _ es k v, hs₂.lookup hk, hv⟩
    · obtain ⟨es, he, hes⟩ := h
      have hkeys : ∀ p ∈ pairs₁, (nodeIn nodes p.1).tag ≠ mergeTag :=
        ((List.forall₂_and_left _ _).mp (hes.imp fun p e h => ⟨hs₂.tag_ne h.1, h⟩)).1
      obtain ⟨pairs₀, merged, hp₀, rfl⟩ := (hs₁.leads.settles id).exists_merged hc₁ hkeys
      have hmerged : ∀ p ∈ merged, PairOf nodes p := fun p hp =>
        hs₁.pairOf hc₁ (List.mem_append_left _ hp)
      exact ⟨es, ⟨pairs₀, merged, hp₀, hmerged, hes⟩, he⟩
  · exact soundAt_problem _ _

theorem soundAt_pair (ordered : Bool) (outer : Node) (id : NodeId) (s : Loading) :
    SoundAt nodes taken s (pair ordered outer id) fun v s' => IsPair nodes s'.graph s'.valueOf id v := by
  refine soundAt_nodeAt_bind ?_
  split
  · next key other hc =>
    refine soundAt_of fun hs => (soundAt_value key s).bind fun k s₁ _ hk =>
      (soundAt_value other s₁).bind fun v s₂ hs₂ hv => soundAt_get_bind fun hsound => ?_
    have hkeys : ∀ p ∈ [(key, other)], (nodeIn nodes p.1).tag ≠ mergeTag := by
      intro p hp
      cases List.mem_singleton.mp hp
      exact hsound.tag_ne (hs₂.lookup hk)
    obtain ⟨pairs₀, merged, hp₀, hone⟩ := (hs.leads.settles id).exists_merged hc hkeys
    refine ensures_ok ⟨⟨fun h => h, Graph.get?_add⟩, hsound.addTuple _, ?_⟩
    have hmerged : ∀ q ∈ merged, PairOf nodes q := fun q hq =>
      hs.pairOf hc (hone ▸ List.mem_append_left _ hq)
    exact ⟨pairs₀, merged, (key, other), _, k, v, hp₀, hmerged, hone, hs₂.lookup hk, hv, rfl,
      Graph.get?_add_self _ _⟩
  · exact soundAt_problemWithin _ _ _ _
  · exact soundAt_problemWithin _ _ _ _

/-- What a container is filled with. -/
theorem soundAt_contents (id : NodeId) {form : Form} (hform : form.isCollection = true) (s : Loading) :
    SoundAt nodes taken s (contents id form) fun c s' =>
      Fills nodes s'.graph s'.valueOf id form c := by
  refine soundAt_nodeAt_bind ?_
  cases form with
  | map =>
    refine (soundAt_entries id s).bind fun entries s₁ _ h => soundAt_pure fun _ => ?_
    obtain ⟨es, hes, rfl⟩ := h
    exact .map hes
  | set =>
    refine (soundAt_entries id s).bind fun entries s₁ _ h => soundAt_pure fun _ => ?_
    obtain ⟨es, hes, rfl⟩ := h
    exact .set hes
  | pairs ordered =>
    dsimp only
    split
    · next items hc =>
      refine soundAt_of fun hs =>
        (soundAt_mapM (soundAt_pair ordered _) IsPair.grows items s).bind fun vs s₁ _ hvs => ?_
      exact soundAt_pure fun _ => .pairs ordered ((hs.leads.settles id).sequence hc) hvs
    · exact soundAt_problemWithin _ _ _ _
  | list =>
    dsimp only
    split
    · next items hc =>
      refine soundAt_of fun hs =>
        (soundAt_mapM soundAt_value (fun h hs => hs.lookup h) items s).bind fun vs s₁ _ hvs => ?_
      exact soundAt_pure fun _ => .list ((hs.leads.settles id).sequence hc) hvs
    · exact soundAt_problem _ _
  | null | bool | int | float | octets | timestamp | text | code => cases hform

end Loader

/-! ## Rounds -/

theorem get?_set_self {g : Graph} {a : Address} {c c' : Container} (h : g.get? a = some c) :
    (g.set a c').get? a = some c' := by
  obtain ⟨hlt, -⟩ := Array.getElem?_eq_some_iff.mp h
  simp [Graph.get?, Graph.set, hlt]

theorem get?_set_of_ne {g : Graph} {a b : Address} {c : Container} (h : a ≠ b) :
    (g.set a c).get? b = g.get? b :=
  Array.getElem?_setIfInBounds_ne h

/-- The containers that were taken up are filled. -/
def Filled (nodes : Array Node) (taken : List (NodeId × Form × Address)) (s : Loading) : Prop :=
  ∀ e ∈ taken, ∃ c, s.graph.get? e.2.2 = some c ∧ Fills nodes s.graph s.valueOf e.1 e.2.1 c

theorem Filled.grows (h : Filled nodes taken s) (hs : s.Grows s') : Filled nodes taken s' := by
  intro e he
  obtain ⟨c, hc, hf⟩ := h e he
  exact ⟨c, hs.get? hc, hf.mono hs.lookup hs.get?⟩

/-- Filling a container that was taken up last. -/
theorem Filled.set {e : NodeId × Form × Address} {c : Container} (h : Filled nodes taken s)
    (hs : Sound nodes (taken ++ [e]) s) (hf : Fills nodes s.graph s.valueOf e.1 e.2.1 c) :
    Filled nodes (taken ++ [e]) { s with graph := s.graph.set e.2.2 c } := by
  obtain ⟨c₀, hc₀, hk⟩ := hs.get? (List.mem_append_left _ (List.mem_append_right _ List.mem_cons_self))
  -- A tuple is somewhere else.
  have htuple : ∀ {a : Address} {vs : List Value}, s.graph.get? a = some (.tuple vs) →
      (s.graph.set e.2.2 c).get? a = some (.tuple vs) := by
    intro a vs ha
    rw [get?_set_of_ne, ha]
    rintro rfl
    cases hc₀.symm.trans ha
    exact hk rfl
  have hnodup := hs.nodup
  rw [List.map_append, List.map_append] at hnodup
  have hapart := (List.nodup_append.mp (List.nodup_append.mp hnodup).1).2.2
  intro e' he'
  rcases List.mem_append.mp he' with he' | he'
  · obtain ⟨c', hc', hf'⟩ := h e' he'
    have hne := hapart _ (List.mem_map_of_mem he') _ (List.mem_map_of_mem List.mem_cons_self)
    exact ⟨c', (get?_set_of_ne (Ne.symm hne)).trans hc', hf'.mono (fun h => h) htuple⟩
  · cases List.mem_singleton.mp he'
    exact ⟨c, get?_set_self hc₀, hf.mono (fun h => h) htuple⟩

theorem Sound.set {e : NodeId × Form × Address} {c : Container} (h : Sound nodes taken s)
    (he : e ∈ taken ++ s.waiting) (hc : c.kind ≠ .tuple) :
    Sound nodes taken { s with graph := s.graph.set e.2.2 c } where
  leads := h.leads.trans (Loading.leads_of_nodes rfl)
  pairs := h.pairs
  scalar := h.scalar
  container := h.container
  entry := h.entry
  get? := by
    intro id form a he'
    by_cases ha : e.2.2 = a
    · subst ha
      obtain ⟨c₀, hc₀, -⟩ := h.get? he
      exact ⟨c, get?_set_self hc₀, hc⟩
    · obtain ⟨c', hc', hk⟩ := h.get? he'
      exact ⟨c', (get?_set_of_ne ha).trans hc', hk⟩
  nodup := h.nodup

/-- The next container that waits is taken up. -/
theorem Sound.take {e : NodeId × Form × Address} {rest : List (NodeId × Form × Address)}
    (h : Sound nodes taken s) (hw : s.waiting = e :: rest) :
    Sound nodes (taken ++ [e]) { s with waiting := rest } := by
  have happend : taken ++ [e] ++ rest = taken ++ s.waiting := by
    rw [hw, List.append_assoc, List.singleton_append]
  exact
    { leads := h.leads.trans (Loading.leads_of_nodes rfl)
      pairs := h.pairs
      scalar := h.scalar
      container := by
        dsimp only
        rw [happend]
        exact h.container
      entry := by
        dsimp only
        rw [happend]
        exact h.entry
      get? := by
        dsimp only
        rw [happend]
        exact h.get?
      nodup := by
        dsimp only
        rw [happend]
        exact h.nodup }

/-- There are no more containers of nodes than nodes. -/
theorem Sound.length_le (h : Sound nodes taken s) : taken.length ≤ nodes.size := by
  have hids : ((taken ++ s.waiting).map (·.1)).Nodup := by
    refine List.pairwise_map.mpr (List.Pairwise.imp_of_mem ?_ (List.pairwise_map.mp h.nodup))
    intro e e' he he' hne hid
    obtain ⟨id, form, a⟩ := e
    obtain ⟨id', form', a'⟩ := e'
    cases hid
    have hv := (h.entry he).1.symm.trans (h.entry he').1
    cases hv
    exact hne rfl
  have hlt : (taken ++ s.waiting).map (·.1) ⊆ List.range nodes.size := by
    intro id hid
    obtain ⟨⟨id', form, a⟩, he, rfl⟩ := List.mem_map.mp hid
    obtain ⟨-, hf, hc⟩ := h.entry he
    exact List.mem_range.mpr (hf.lt_size hc)
  have hle := (hids.subperm hlt).length_le
  rw [List.length_map, List.length_append, List.length_range] at hle
  omega

namespace Loader

/-- All containers that wait are filled, if there are enough rounds. -/
theorem ensures_fillAll : ∀ (limit : Nat) {taken : List (NodeId × Form × Address)} {s : Loading},
    Sound nodes taken s → Filled nodes taken s → nodes.size < taken.length + limit →
    Ensures ((fillAll limit).run s) fun r => (∀ {id v}, s.valueOf id = some v → r.2.valueOf id = some v) ∧
      ∃ taken', Sound nodes taken' r.2 ∧ Filled nodes taken' r.2 ∧ r.2.waiting = []
  | 0, taken, s, hs, hf, hl => absurd hs.length_le (by omega)
  | limit + 1, taken, s, hs, hf, hl => by
    rw [fillAll, StateT.run_bind]
    refine Ensures.bind (P := fun r => r = (s, s)) (ensures_ok rfl) ?_
    rintro _ rfl
    dsimp only
    split
    · next hw => exact ensures_pure ⟨fun h => h, taken, hs, hf, hw⟩
    · next id form a rest hw =>
      have hs₁ := hs.take hw
      have hcollection := (hs₁.entry (List.mem_append_left _ (List.mem_append_right _ List.mem_cons_self))).2.2
      rw [StateT.run_bind]
      refine Ensures.bind (P := fun r => r.2 = { s with waiting := rest }) (ensures_ok rfl) ?_
      rintro ⟨_, s₁⟩ rfl
      rw [StateT.run_bind]
      refine (soundAt_contents id hcollection _ hs₁).bind fun r hr => ?_
      obtain ⟨c, s₂⟩ := r
      obtain ⟨hgrows, hs₂, hc⟩ := hr
      rw [StateT.run_bind]
      refine Ensures.bind (P := fun r => r.2 = { s₂ with graph := s₂.graph.set a c }) (ensures_ok rfl) ?_
      rintro ⟨_, s₃⟩ rfl
      have hf₂ : Filled nodes taken s₂ := Filled.grows (s := { s with waiting := rest }) hf hgrows
      have hs₃ := hs₂.set (List.mem_append_left _ (List.mem_append_right _ List.mem_cons_self)) hc.kind_ne
      refine (ensures_fillAll limit hs₃ (hf₂.set hs₂ hc) ?_).imp fun r hr => ?_
      · rw [List.length_append, List.length_singleton]
        omega
      · exact ⟨fun h => hr.1 (hgrows.lookup h), hr.2⟩

end Loader

/-- If no container waits, the containers of all nodes are filled. -/
theorem Sound.exists_fills (h : Sound nodes taken s) (hf : Filled nodes taken s) (hw : s.waiting = [])
    {a : Address} (hv : s.valueOf id = some (.container a)) : ∃ form, FormOf nodes id form ∧
      ∃ c, s.graph.get? a = some c ∧ Fills nodes s.graph s.valueOf id form c := by
  obtain ⟨form, he⟩ := h.container hv
  have hform := (h.entry he).2.1
  rw [hw, List.append_nil] at he
  exact ⟨form, hform, hf _ he⟩

/-- A table without containers that wait interprets the nodes. -/
theorem Sound.interprets (h : Sound nodes taken s) (hf : Filled nodes taken s) (hw : s.waiting = []) :
    Interprets nodes s.graph s.valueOf := by
  refine ⟨?_, ?_⟩
  · intro id v text hv hc
    cases v with
    | scalar k =>
      obtain ⟨form, hform, -, hk⟩ := h.scalar hv
      exact ⟨form, k, hform, hk text hc, rfl⟩
    | container a =>
      -- A container of a node that is a scalar could not have been filled.
      obtain ⟨form, -, c, -, hfills⟩ := h.exists_fills hf hw hv
      have hcontent := hfills.content_ne text
      exact absurd hc hcontent
  · intro id v form hv hform hc
    cases v with
    | scalar k =>
      obtain ⟨form', hform', hc', -⟩ := h.scalar hv
      cases hform.unique hform'
      cases hc.symm.trans hc'
    | container a =>
      obtain ⟨form', hform', c, hget, hfills⟩ := h.exists_fills hf hw hv
      cases hform.unique hform'
      exact ⟨a, c, rfl, hget, hfills⟩

/-- What is loaded from a node is its value in a table without containers that wait. -/
theorem sound_of_root {v : Value} (h : (Loader.root id).run { nodes } = .ok (v, s)) :
    s.valueOf id = some v ∧
      ∃ taken, Sound nodes taken s ∧ Filled nodes taken s ∧ s.waiting = [] := by
  have hroot : Ensures ((Loader.root id).run { nodes }) fun r => r.2.valueOf id = some r.1 ∧
      ∃ taken, Sound nodes taken r.2 ∧ Filled nodes taken r.2 ∧ r.2.waiting = [] := by
    unfold Loader.root
    rw [StateT.run_bind]
    refine (Loader.soundAt_value id _ (sound_init nodes)).bind fun r hr => ?_
    obtain ⟨v, s₁⟩ := r
    obtain ⟨-, hs, hv⟩ := hr
    have hlimit : nodes.size < ([] : List (NodeId × Form × Address)).length + (s₁.nodes.size + 1) := by
      rw [hs.leads.size, List.length_nil, Nat.zero_add]
      exact Nat.lt_succ_self _
    refine Ensures.bind (Loader.ensures_fillAll _ hs (List.forall_mem_nil _) hlimit) fun r' hr' => ?_
    exact ensures_ok ⟨hr'.1 hv, hr'.2⟩
  exact hroot _ h

/-- **What is loaded from a node interprets the nodes.** -/
theorem interprets_of_root {v : Value} (h : (Loader.root id).run { nodes } = .ok (v, s)) :
    Interprets nodes s.graph s.valueOf ∧ s.valueOf id = some v := by
  obtain ⟨hv, taken, hs, hf, hw⟩ := sound_of_root h
  exact ⟨hs.interprets hf hw, hv⟩

end Componentry.Yaml
