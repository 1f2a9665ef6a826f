import Componentry.Proofs.Yaml.Filling

/-!
# Keys of loaded maps

What a loaded document contains are the values of its nodes, and the tuples of two of them that the
items of a sequence of pairs become.  So everything about a loaded document that is about its containers
can be read off the nodes.

**Main statement.** The maps in a loaded document are under scalars (`scalarKeyed_of_valueOfText`).
-/

namespace Componentry

open Relation (ReflTransGen)

/-- The keys of all maps in the value are scalars. -/
def Graph.ScalarKeyed (g : Graph) (v : Value) : Prop :=
  ∀ a entries, ReflTransGen g.Contains v (.container a) → g.get? a = some (.map entries) →
    ∀ e ∈ entries, ∃ k, e.1 = .scalar k

theorem Graph.ScalarKeyed.part {g : Graph} {v w : Value} (h : g.ScalarKeyed v) (hw : g.Contains v w) :
    g.ScalarKeyed w :=
  fun a entries ha hc => h a entries (.head hw ha) hc

theorem Graph.scalarKeyed_scalar (g : Graph) (k : Scalar) : g.ScalarKeyed (.scalar k) := by
  intro a entries ha
  rcases ha.cases_head with he | ⟨_, ⟨_, _, hv, _⟩, _⟩
  · cases he
  · cases hv

namespace Yaml

/-! ## Entries of maps -/

theorem mem_insertEntry {g : Graph} {k v : Value} {e : Value × Value} {es : List (Value × Value)}
    (h : e ∈ g.insertEntry es k v) :
    (e.1 = k ∨ ∃ e' ∈ es, e.1 = e'.1) ∧ (e.2 = v ∨ ∃ e' ∈ es, e.2 = e'.2) := by
  induction es with
  | nil =>
    cases List.mem_singleton.mp h
    exact ⟨.inl rfl, .inl rfl⟩
  | cons first es ih =>
    obtain ⟨k₁, v₁⟩ := first
    rw [Graph.insertEntry] at h
    split at h
    · rcases List.mem_cons.mp h with rfl | he
      · exact ⟨.inr ⟨_, List.mem_cons_self, rfl⟩, .inl rfl⟩
      · exact ⟨.inr ⟨e, List.mem_cons_of_mem _ he, rfl⟩, .inr ⟨e, List.mem_cons_of_mem _ he, rfl⟩⟩
    · rcases List.mem_cons.mp h with rfl | he
      · exact ⟨.inr ⟨_, List.mem_cons_self, rfl⟩, .inr ⟨_, List.mem_cons_self, rfl⟩⟩
      · obtain ⟨hkey, hvalue⟩ := ih he
        constructor
        · rcases hkey with hkey | ⟨e', he', hkey⟩
          · exact .inl hkey
          · exact .inr ⟨e', List.mem_cons_of_mem _ he', hkey⟩
        · rcases hvalue with hvalue | ⟨e', he', hvalue⟩
          · exact .inl hvalue
          · exact .inr ⟨e', List.mem_cons_of_mem _ he', hvalue⟩

/-- Keys and values of a map are those of its entries, though not always of the same one. -/
theorem mem_mapOf {es : List (Scalar × Value)} {e : Value × Value} (h : e ∈ mapOf es) :
    (∃ e' ∈ es, e.1 = .scalar e'.1) ∧ ∃ e' ∈ es, e.2 = e'.2 := by
  induction es using List.reverseRecOn generalizing e with
  | nil => cases h
  | append_singleton es last ih =>
    have hlast : last ∈ es ++ [last] := List.mem_append_right _ List.mem_cons_self
    rw [mapOf_concat] at h
    obtain ⟨hkey, hvalue⟩ := mem_insertEntry h
    constructor
    · rcases hkey with hkey | ⟨e', he', hkey⟩
      · exact ⟨last, hlast, hkey⟩
      · obtain ⟨⟨e'', he'', hkey'⟩, -⟩ := ih he'
        exact ⟨e'', List.mem_append_left _ he'', hkey.trans hkey'⟩
    · rcases hvalue with hvalue | ⟨e', he', hvalue⟩
      · exact ⟨last, hlast, hvalue⟩
      · obtain ⟨-, e'', he'', hvalue'⟩ := ih he'
        exact ⟨e'', List.mem_append_left _ he'', hvalue.trans hvalue'⟩

/-! ## Parts of loaded values -/

variable {nodes : Array Node} {s : Loading} {id : NodeId}

/-- What a loaded document contains: values of nodes, and tuples of two of them. -/
inductive Loading.Holds (s : Loading) : Value → Prop
  | node {id : NodeId} {v : Value} (h : s.valueOf id = some v) : Holds s v
  | pair {i j : NodeId} {k v : Value} {a : Address} (hk : s.valueOf i = some k)
    (hv : s.valueOf j = some v) (ha : s.graph.get? a = some (.tuple [k, v])) : Holds s (.container a)

theorem HasEntries.holds {entries : List (Scalar × Value)} (h : HasEntries nodes s.valueOf id entries)
    {e : Value × Value} (he : e ∈ mapOf entries) : s.Holds e.1 ∧ s.Holds e.2 := by
  obtain ⟨pairs, merged, -, -, hentries⟩ := h
  obtain ⟨⟨e₁, he₁, hkey⟩, e₂, he₂, hvalue⟩ := mem_mapOf he
  obtain ⟨p₁, -, hp₁, -⟩ := exists_mem_left hentries he₁
  obtain ⟨p₂, -, -, hp₂⟩ := exists_mem_left hentries he₂
  rw [hkey, hvalue]
  exact ⟨.node hp₁, .node hp₂⟩

/-- What is in the containers of nodes are values of nodes and tuples of them. -/
theorem Fills.holds {form : Form} {c : Container} (h : Fills nodes s.graph s.valueOf id form c) :
    ∀ w ∈ c.parts, s.Holds w := by
  cases h with
  | list _ hvs =>
    intro w hw
    obtain ⟨item, -, hitem⟩ := exists_mem_left hvs hw
    exact .node hitem
  | pairs _ _ hvs =>
    intro w hw
    obtain ⟨item, -, pairs, merged, p, a, k, v, -, -, -, hk, hv, rfl, ha⟩ := exists_mem_left hvs hw
    exact .pair hk hv ha
  | map hentries =>
    intro w hw
    obtain ⟨e, he, hw⟩ := List.mem_flatMap.mp hw
    obtain ⟨hkey, hvalue⟩ := hentries.holds he
    rcases List.mem_pair.mp hw with rfl | rfl
    · exact hkey
    · exact hvalue
  | set hentries =>
    exact List.forall_mem_map.mpr fun e he => (hentries.holds he).1

variable {taken : List (NodeId × Form × Address)}

section Loaded

variable (hs : Sound nodes taken s) (hf : Filled nodes taken s) (hw : s.waiting = [])

include hs hf hw

theorem Loading.Holds.part {v w : Value} (h : s.Holds v) (hv : s.graph.Contains v w) : s.Holds w := by
  obtain ⟨a, c, rfl, hc, hpart⟩ := hv
  cases h with
  | node hnode =>
    obtain ⟨form, -, c', hc', hfills⟩ := hs.exists_fills hf hw hnode
    cases hc.symm.trans hc'
    exact hfills.holds w hpart
  | pair hk hv ha =>
    cases hc.symm.trans ha
    rcases List.mem_pair.mp hpart with rfl | rfl
    · exact .node hk
    · exact .node hv

theorem Loading.Holds.keys {a : Address} {entries : List (Value × Value)} (h : s.Holds (.container a))
    (hc : s.graph.get? a = some (.map entries)) : ∀ e ∈ entries, ∃ k, e.1 = .scalar k := by
  cases h with
  | node hnode =>
    obtain ⟨form, -, c', hc', hfills⟩ := hs.exists_fills hf hw hnode
    cases hc.symm.trans hc'
    -- of the forms of nodes only mappings fill a map
    cases hfills
    exact exists_scalar_mapOf _
  | pair _ _ ha => cases hc.symm.trans ha

theorem Loading.Holds.reached {v w : Value} (h : s.Holds v) (hv : ReflTransGen s.graph.Contains v w) :
    s.Holds w := by
  induction hv with
  | refl => exact h
  | tail _ hstep ih => exact ih.part hs hf hw hstep

theorem Loading.Holds.scalarKeyed {v : Value} (h : s.Holds v) : s.graph.ScalarKeyed v :=
  fun _ _ ha hc => (h.reached hs hf hw ha).keys hs hf hw hc

end Loaded

/-- **The maps in a loaded document are under scalars.** -/
theorem scalarKeyed_of_valueOfText {text : List Char} {d : Document} (h : valueOfText text = .ok d) :
    d.graph.ScalarKeyed d.root := by
  unfold valueOfText at h
  cases hn : NodeGraph.ofTokens (TokenStream.ofText text) with
  | error e =>
    rw [hn] at h
    cases h
  | ok g =>
    rw [hn] at h
    simp only [bind, Except.bind] at h
    split at h
    · cases h
      exact Graph.scalarKeyed_scalar _ _
    · next id _ =>
      cases hr : (Loader.root id).run { nodes := g.nodes } with
      | error e =>
        rw [hr] at h
        cases h
      | ok r =>
        obtain ⟨root, s⟩ := r
        rw [hr] at h
        cases h
        obtain ⟨hv, taken, hs, hf, hw⟩ := sound_of_root hr
        exact Loading.Holds.scalarKeyed hs hf hw (.node hv)

end Yaml

end Componentry
