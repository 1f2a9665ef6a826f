import Componentry.Proofs.Document.Unfolding
import Mathlib.Data.List.Forall2

/-!
# Trees as values

A tree in which no container is inside itself can be put into a graph, the parts of a container before
the container.

**Main statement.** Every such tree is what a value unfolds to (`Tree.Whole.exists_unfolds`).

The graph grows while the parts are put into it one by one.  So what is said of a part that is in the
graph already is said of all graphs that it may grow to (`Graph.Holds`).
-/

namespace Componentry

/-- No container in the tree is inside itself. -/
inductive Tree.Whole : Tree → Prop
  | scalar (s : Scalar) : Whole (.scalar s)
  | list {items : List Tree} (h : ∀ t ∈ items, Whole t) : Whole (.list items)
  | tuple {items : List Tree} (h : ∀ t ∈ items, Whole t) : Whole (.tuple items)
  | set {items : List Tree} (h : ∀ t ∈ items, Whole t) : Whole (.set items)
  | map {entries : List (Tree × Tree)} (hk : ∀ e ∈ entries, Whole e.1)
    (hv : ∀ e ∈ entries, Whole e.2) : Whole (.map entries)

namespace Graph

variable {g g' g'' : Graph} {v : Value} {t : Tree}

/-- The trees of values have no container inside itself. -/
theorem Unfolds.whole (h : g.Unfolds v t) : t.Whole := by
  induction h with
  | scalar s => exact .scalar s
  | vacant _ => exact .scalar .null
  | @container a c part _ _ ih =>
    cases c with
    | list items => exact .list (List.forall_mem_map.mpr ih)
    | tuple items => exact .tuple (List.forall_mem_map.mpr ih)
    | set items => exact .set (List.forall_mem_map.mpr ih)
    | map entries =>
      exact .map (List.forall_mem_map.mpr fun e he => ih _ (mem_parts_fst he))
        (List.forall_mem_map.mpr fun e he => ih _ (mem_parts_snd he))

/-! ## Growth -/

/-- The containers of the first graph are in the second, at the same addresses. -/
def Grows (g g' : Graph) : Prop :=
  ∀ a c, g.get? a = some c → g'.get? a = some c

theorem grows_refl (g : Graph) : g.Grows g :=
  fun _ _ h => h

theorem Grows.trans (h : g.Grows g') (h' : g'.Grows g'') : g.Grows g'' :=
  fun a c hc => h' a c (h a c hc)

theorem grows_add (g : Graph) (c : Container) : g.Grows (g.add c).1 :=
  fun _ _ h => get?_add h

/-- The value unfolds to the tree, whatever the graph grows to. -/
def Holds (g : Graph) (v : Value) (t : Tree) : Prop :=
  ∀ g', g.Grows g' → g'.Unfolds v t

theorem Holds.grows (h : g.Holds v t) (hg : g.Grows g') : g'.Holds v t :=
  fun g'' hg' => h g'' (hg.trans hg')

variable {values : List Value} {trees : List Tree}

theorem map_unfold_of_holds (h : List.Forall₂ g.Holds values trees) (hg : g.Grows g') :
    values.map g'.unfold = trees := by
  induction h with
  | nil => rfl
  | cons hv _ ih => rw [List.map_cons, (hv g' hg).unfold_eq, ih]

theorem unfolds_of_holds (h : List.Forall₂ g.Holds values trees) (hg : g.Grows g') :
    ∀ v ∈ values, g'.Unfolds v (g'.unfold v) := by
  induction h with
  | nil => exact List.forall_mem_nil _
  | cons hv _ ih =>
    have hunfolds := hv g' hg
    exact List.forall_mem_cons.mpr ⟨hunfolds.unfold_eq ▸ hunfolds, ih⟩

/-! ## One container more -/

/-- A container whose parts are in the graph already. -/
theorem holds_add {c : Container} (h : ∀ g', g.Grows g' →
      c.tree g'.unfold = t ∧ ∀ w ∈ c.parts, g'.Unfolds w (g'.unfold w)) :
    (g.add c).1.Holds (.container (g.add c).2) t := by
  intro g' hg
  obtain ⟨rfl, hparts⟩ := h g' ((grows_add g c).trans hg)
  exact .container (hg _ _ (get?_add_self g c)) hparts

/-- The tree is put into every graph. -/
def Placed (t : Tree) : Prop :=
  ∀ g : Graph, ∃ g' v, g.Grows g' ∧ g'.Holds v t

theorem exists_holds (h : ∀ t ∈ trees, Placed t) (g : Graph) :
    ∃ g' values, g.Grows g' ∧ List.Forall₂ g'.Holds values trees := by
  induction trees generalizing g with
  | nil => exact ⟨g, [], grows_refl g, .nil⟩
  | cons t trees ih =>
    obtain ⟨ht, htrees⟩ := List.forall_mem_cons.mp h
    obtain ⟨g₁, v, hg₁, hv⟩ := ht g
    obtain ⟨g₂, values, hg₂, hvalues⟩ := ih htrees g₁
    exact ⟨g₂, v :: values, hg₁.trans hg₂, .cons (hv.grows hg₂) hvalues⟩

/-- A list, a tuple or a set. -/
theorem placed_items {items : List Tree} (make : List Value → Container)
    (hparts : ∀ values, (make values).parts = values) (h : ∀ t ∈ items, Placed t)
    (ht : ∀ values (part : Value → Tree), values.map part = items → (make values).tree part = t) :
    Placed t := by
  intro g
  obtain ⟨g', values, hg, hvalues⟩ := exists_holds h g
  refine ⟨_, _, hg.trans (grows_add g' (make values)), holds_add fun g'' hg' => ⟨?_, ?_⟩⟩
  · exact ht values _ (map_unfold_of_holds hvalues hg')
  · rw [hparts]
    exact unfolds_of_holds hvalues hg'

theorem placed_map {entries : List (Tree × Tree)} (hk : ∀ e ∈ entries, Placed e.1)
    (hv : ∀ e ∈ entries, Placed e.2) : Placed (.map entries) := by
  intro g
  obtain ⟨g₁, keys, hg₁, hkeys⟩ := exists_holds (List.forall_mem_map.mpr hk) g
  obtain ⟨g₂, values, hg₂, hvalues⟩ := exists_holds (List.forall_mem_map.mpr hv) g₁
  refine ⟨_, _, (hg₁.trans hg₂).trans (grows_add g₂ (.map (keys.zip values))),
    holds_add fun g₃ hg₃ => ⟨?_, ?_⟩⟩
  · have hfst := map_unfold_of_holds hkeys (hg₂.trans hg₃)
    have hsnd := map_unfold_of_holds hvalues hg₃
    refine congrArg Tree.map ?_
    calc (keys.zip values).map (Prod.map g₃.unfold g₃.unfold)
        = (keys.map g₃.unfold).zip (values.map g₃.unfold) := List.zip_map.symm
      _ = entries := by rw [hfst, hsnd, ← List.unzip_fst, ← List.unzip_snd, List.zip_unzip]
  · intro w hw
    obtain ⟨e, he, hw⟩ := List.mem_flatMap.mp hw
    obtain ⟨hkey, hvalue⟩ := List.of_mem_zip (show (e.1, e.2) ∈ keys.zip values from he)
    rcases List.mem_pair.mp hw with rfl | rfl
    · exact unfolds_of_holds hkeys (hg₂.trans hg₃) _ hkey
    · exact unfolds_of_holds hvalues hg₃ _ hvalue

end Graph

namespace Tree

theorem Whole.placed {t : Tree} (h : t.Whole) : Graph.Placed t := by
  induction h with
  | scalar s => exact fun g => ⟨g, .scalar s, g.grows_refl, fun _ _ => .scalar s⟩
  | list _ ih => exact Graph.placed_items .list (fun _ => rfl) ih fun _ _ h => congrArg Tree.list h
  | tuple _ ih => exact Graph.placed_items .tuple (fun _ => rfl) ih fun _ _ h => congrArg Tree.tuple h
  | set _ ih => exact Graph.placed_items .set (fun _ => rfl) ih fun _ _ h => congrArg Tree.set h
  | map _ _ ihk ihv => exact Graph.placed_map ihk ihv

/-- **Every tree in which no container is inside itself is the tree of a value.** -/
theorem Whole.exists_unfolds {t : Tree} (h : t.Whole) : ∃ (g : Graph) (v : Value), g.Unfolds v t := by
  obtain ⟨g, v, -, hv⟩ := h.placed {}
  exact ⟨g, v, hv g g.grows_refl⟩

end Tree

end Componentry
