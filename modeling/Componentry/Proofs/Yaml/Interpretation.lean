import Componentry.Proofs.Yaml.CoreSchema
import Componentry.Proofs.Yaml.Load

/-!
# Interpretations of nodes

A document that was loaded is an interpretation of its nodes: a table of values for them, in which a
scalar has what its form reads, a sequence the list of the values of its items, and a mapping the map
of the values of its pairs (`Interprets`).  Pairs that were merged into a mapping come in front of its
own.

A longer table keeps what the shorter one says (`Fills.mono`).  The keys of maps are scalars, so it does
not matter in which graph they are compared (`insertEntry_mapOf`).
-/

namespace Componentry.Yaml

/-! ## Interpretations -/

/-- The form in which a node is read: that of its tag, and that of texts for a key that stands for a
whole mapping. -/
def FormOf (nodes : Array Node) (id : NodeId) (form : Form) : Prop :=
  Form.ofTag? (nodeIn nodes id).tag = some form ∨ ((nodeIn nodes id).tag = valueTag ∧ form = .text)

/-- The entries of a map under scalars, a later one in the place of an earlier one under the same
key. -/
def mapOf (entries : List (Scalar × Value)) : List (Value × Value) :=
  entries.foldl (fun es e => ({} : Graph).insertEntry es (.scalar e.1) e.2) []

/-- The pair is one of a mapping among the nodes. -/
def PairOf (nodes : Array Node) (p : NodeId × NodeId) : Prop :=
  ∃ id, p ∈ (nodeIn nodes id).pairs

section

variable (nodes : Array Node) (g : Graph) (value : NodeId → Option Value) (id : NodeId)

/-- The node is a mapping.  Pairs of mappings that are merged into it and then its own have these
values. -/
def HasEntries (entries : List (Scalar × Value)) : Prop :=
  ∃ pairs merged, (nodeIn nodes id).content = .mapping pairs ∧ (∀ p ∈ merged, PairOf nodes p) ∧
    List.Forall₂ (fun p e => value p.1 = some (.scalar e.1) ∧ value p.2 = some e.2)
      (merged ++ ownPairs nodes pairs) entries

/-- The node is a mapping with one pair, and the value is the tuple for it. -/
def IsPair (v : Value) : Prop :=
  ∃ pairs merged p a k w, (nodeIn nodes id).content = .mapping pairs ∧
    (∀ q ∈ merged, PairOf nodes q) ∧ merged ++ ownPairs nodes pairs = [p] ∧
      value p.1 = some k ∧ value p.2 = some w ∧ v = .container a ∧ g.get? a = some (.tuple [k, w])

/-- The container holds what the node is made of. -/
inductive Fills : Form → Container → Prop
  | list {items : List NodeId} {vs : List Value} (hc : (nodeIn nodes id).content = .sequence items)
    (hv : List.Forall₂ (fun item v => value item = some v) items vs) : Fills .list (.list vs)
  | pairs (ordered : Bool) {items : List NodeId} {vs : List Value}
    (hc : (nodeIn nodes id).content = .sequence items)
    (hv : List.Forall₂ (IsPair nodes g value) items vs) : Fills (.pairs ordered) (.list vs)
  | map {entries : List (Scalar × Value)} (h : HasEntries nodes value id entries) :
    Fills .map (.map (mapOf entries))
  | set {entries : List (Scalar × Value)} (h : HasEntries nodes value id entries) :
    Fills .set (.set ((mapOf entries).map (·.1)))

end

/-- The table gives the nodes values in the graph. -/
structure Interprets (nodes : Array Node) (g : Graph) (value : NodeId → Option Value) : Prop where
  scalar : ∀ {id v text}, value id = some v → (nodeIn nodes id).content = .scalar text →
    ∃ form s, FormOf nodes id form ∧ form.Reads (id + 1) text s ∧ v = .scalar s
  collection : ∀ {id v form}, value id = some v → FormOf nodes id form → form.isCollection = true →
    ∃ a c, v = .container a ∧ g.get? a = some c ∧ Fills nodes g value id form c

/-- The pairs of a mapping that has a value have values, and keys are scalars. -/
theorem HasEntries.exists_value {nodes : Array Node} {value : NodeId → Option Value} {id : NodeId}
    {entries : List (Scalar × Value)} (h : HasEntries nodes value id entries) {p : NodeId × NodeId}
    (hp : p ∈ ownPairs nodes (nodeIn nodes id).pairs) :
    ∃ e ∈ entries, value p.1 = some (.scalar e.1) ∧ value p.2 = some e.2 := by
  obtain ⟨pairs, merged, hc, -, hentries⟩ := h
  rw [Node.pairs, hc] at hp
  obtain ⟨i, hi, rfl⟩ := List.getElem_of_mem (List.mem_append_right merged hp)
  have hlt : i < entries.length := hentries.length_eq ▸ hi
  exact ⟨entries[i], List.getElem_mem hlt, hentries.get hi hlt⟩

/-! ## Forms of nodes -/

variable {nodes : Array Node} {id : NodeId}

theorem ofTag?_valueTag : Form.ofTag? valueTag = none := by decide +kernel

theorem ofTag?_mergeTag : Form.ofTag? mergeTag = none := by decide +kernel

theorem ofTag?_textTag : Form.ofTag? textTag = some .text := by decide +kernel

theorem FormOf.unique {form form' : Form} (h : FormOf nodes id form) (h' : FormOf nodes id form') :
    form = form' := by
  rcases h with h | ⟨hv, rfl⟩ <;> rcases h' with h' | ⟨hv', rfl⟩
  · exact Option.some.inj (h.symm.trans h')
  · rw [hv', ofTag?_valueTag] at h
    cases h
  · rw [hv, ofTag?_valueTag] at h'
    cases h'
  · rfl

/-- A node with a form is no key that merges. -/
theorem FormOf.tag_ne {form : Form} (h : FormOf nodes id form) : (nodeIn nodes id).tag ≠ mergeTag := by
  rintro ht
  rcases h with h | ⟨hv, -⟩
  · rw [ht, ofTag?_mergeTag] at h
    cases h
  · exact absurd (ht.symm.trans hv) (by decide)

/-- A number without a node has no form of collections. -/
theorem FormOf.lt_size {form : Form} (h : FormOf nodes id form) (hc : form.isCollection = true) :
    id < nodes.size := by
  by_contra hlt
  have htag : (nodeIn nodes id).tag = textTag := by
    simp [nodeIn, Array.getD_eq_getD_getElem?, hlt]
  have htext : FormOf nodes id .text := .inl (htag ▸ ofTag?_textTag)
  cases h.unique htext
  cases hc

/-! ## Keys that are scalars -/

/-- Under keys that are scalars it does not matter in which graph an entry is inserted. -/
theorem insertEntry_scalar (g : Graph) (k : Scalar) (v : Value) : ∀ {es : List (Value × Value)},
    (∀ e ∈ es, ∃ k', e.1 = .scalar k') →
      g.insertEntry es (.scalar k) v = ({} : Graph).insertEntry es (.scalar k) v
  | [], _ => rfl
  | (k₁, v₁) :: es, h => by
    obtain ⟨⟨k', rfl⟩, hes⟩ := List.forall_mem_cons.mp h
    rw [Graph.insertEntry, Graph.insertEntry, insertEntry_scalar g k v hes]
    rfl

theorem exists_scalar_insertEntry (g : Graph) (k : Scalar) (v : Value) : ∀ {es : List (Value × Value)},
    (∀ e ∈ es, ∃ k', e.1 = .scalar k') →
      ∀ e ∈ g.insertEntry es (.scalar k) v, ∃ k', e.1 = .scalar k'
  | [], _ => by
    intro e he
    rw [List.mem_singleton.mp he]
    exact ⟨k, rfl⟩
  | (k₁, v₁) :: es, h => by
    obtain ⟨⟨k', rfl⟩, hes⟩ := List.forall_mem_cons.mp h
    rw [Graph.insertEntry]
    split
    · exact List.forall_mem_cons.mpr ⟨⟨k', rfl⟩, hes⟩
    · exact List.forall_mem_cons.mpr ⟨⟨k', rfl⟩, exists_scalar_insertEntry g k v hes⟩

theorem mapOf_concat (es : List (Scalar × Value)) (e : Scalar × Value) :
    mapOf (es ++ [e]) = ({} : Graph).insertEntry (mapOf es) (.scalar e.1) e.2 := by
  rw [mapOf, List.foldl_append]
  rfl

theorem exists_scalar_mapOf (es : List (Scalar × Value)) : ∀ e ∈ mapOf es, ∃ k, e.1 = .scalar k := by
  induction es using List.reverseRecOn with
  | nil => exact List.forall_mem_nil _
  | append_singleton es e ih =>
    rw [mapOf_concat]
    exact exists_scalar_insertEntry _ _ _ ih

/-- A map with one more entry. -/
theorem insertEntry_mapOf (g : Graph) (es : List (Scalar × Value)) (k : Scalar) (v : Value) :
    g.insertEntry (mapOf es) (.scalar k) v = mapOf (es ++ [(k, v)]) := by
  rw [mapOf_concat]
  exact insertEntry_scalar g k v (exists_scalar_mapOf es)

/-! ## Longer tables -/

theorem HasEntries.mono {value value' : NodeId → Option Value} {entries : List (Scalar × Value)}
    (h : HasEntries nodes value id entries)
    (hv : ∀ {id v}, value id = some v → value' id = some v) : HasEntries nodes value' id entries := by
  obtain ⟨pairs, merged, hc, hm, he⟩ := h
  exact ⟨pairs, merged, hc, hm, he.imp fun _ _ hp => ⟨hv hp.1, hv hp.2⟩⟩

/-- What fills a container does so for longer tables, and for graphs with the same tuples in them. -/
theorem Fills.mono {g g' : Graph} {value value' : NodeId → Option Value} {form : Form} {c : Container}
    (h : Fills nodes g value id form c) (hv : ∀ {id v}, value id = some v → value' id = some v)
    (hg : ∀ {a vs}, g.get? a = some (.tuple vs) → g'.get? a = some (.tuple vs)) :
    Fills nodes g' value' id form c := by
  cases h with
  | list hc hvs => exact .list hc (hvs.imp fun _ _ h => hv h)
  | pairs ordered hc hvs =>
    refine .pairs ordered hc (hvs.imp fun item v h => ?_)
    obtain ⟨pairs, merged, p, a, k, w, hp, hm, hone, hk, hw, ha, ht⟩ := h
    exact ⟨pairs, merged, p, a, k, w, hp, hm, hone, hv hk, hv hw, ha, hg ht⟩
  | map h => exact .map (h.mono hv)
  | set h => exact .set (h.mono hv)

theorem Fills.kind_ne {g : Graph} {value : NodeId → Option Value} {form : Form} {c : Container}
    (h : Fills nodes g value id form c) : c.kind ≠ .tuple := by
  cases h <;> exact ContainerKind.noConfusion

/-- What fills a container is no scalar. -/
theorem Fills.content_ne {g : Graph} {value : NodeId → Option Value} {form : Form} {c : Container}
    (h : Fills nodes g value id form c) (text : String) : (nodeIn nodes id).content ≠ .scalar text := by
  intro hc
  cases h with
  | list hs => cases hc.symm.trans hs
  | pairs ordered hs => cases hc.symm.trans hs
  | map h =>
    obtain ⟨pairs, merged, hp, -⟩ := h
    cases hc.symm.trans hp
  | set h =>
    obtain ⟨pairs, merged, hp, -⟩ := h
    cases hc.symm.trans hp

end Componentry.Yaml
