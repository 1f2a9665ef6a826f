import Componentry.Component.Instance
import Componentry.Proofs.Component.Termination

/-!
# Instances keep nothing from one operation to the next

An instance finds out while it works which containers it is inside of; the compiler is told on the way
down.  `Performs active x t` says that inside the containers `active` the work `x` comes to an end,
that it gives what the computation `t` gives, and that it ends inside the same containers, whether in
a result or in a fault.

**Main statement.** Whatever operations an instance performs, after each of them it is inside of no
container, and what it gives for each is what the compiler gives, hence what a new instance gives
(`run_answers_fresh`).

Leaving a container undoes entering it (`performs_entering`), so that an instance does what one level
of the compiler does if it does so for the calls of that level.  The calls of a level go to smaller
ones, so it does so for all (`performed`).
-/

namespace Componentry.Component

open Instance (Work entering)
open Script (Node)

variable {α β : Type} {active : List Address}

/-! ## Work inside of containers -/

/-- Inside the containers `active` the work gives what `t` gives and ends inside of them again. -/
def Performs (active : List Address) (x : Work α) (t : Traced α) : Prop :=
  ∀ notes, x ⟨active, notes⟩ = some (t.result, ⟨active, notes ++ t.notes⟩)

/-- A computation that makes no notes. -/
theorem performs_except (r : Except Fault α) : Performs active (liftM r) (liftM r : Traced α) := by
  intro notes
  have hnotes : notes ++ (liftM r : Traced α).notes = notes := List.append_nil notes
  rw [hnotes]
  rfl

theorem performs_pure (a : α) : Performs active (pure a) (pure a) :=
  performs_except (.ok a)

theorem performs_traced (t : Traced α) : Performs active (liftM t) t :=
  fun _ => rfl

/-- One piece of work after another. -/
theorem Performs.bind {x : Work α} {t : Traced α} {f : α → Work β} {u : α → Traced β}
    (hx : Performs active x t) (hf : ∀ a, t.result = .ok a → Performs active (f a) (u a)) :
    Performs active (x >>= f) (t >>= u) := by
  intro notes
  obtain ⟨made, result⟩ := t
  show Option.bind (x ⟨active, notes⟩) _ = _
  rw [hx notes]
  cases result with
  | error e => rfl
  | ok a =>
    have hnext := hf a rfl (notes ++ made)
    rw [List.append_assoc] at hnext
    exact hnext

theorem Performs.map {x : Work α} {t : Traced α} (hx : Performs active x t) (f : α → β) :
    Performs active (do return f (← x)) (do return f (← t)) :=
  hx.bind fun a _ => performs_pure (f a)

/-- Work for one item after another. -/
theorem performs_mapM {f : α → Work β} {u : α → Traced β} : ∀ {as : List α},
    (∀ a ∈ as, Performs active (f a) (u a)) → Performs active (as.mapM f) (as.mapM u)
  | [], _ => performs_pure []
  | a :: as, h => by
    obtain ⟨ha, has⟩ := List.forall_mem_cons.mp h
    rw [List.mapM_cons, List.mapM_cons]
    exact ha.bind fun b _ => (performs_mapM has).bind fun bs _ => performs_pure (b :: bs)

/-- Work in a container ends where it started: what was entered is left again. -/
theorem performs_entering {a : Address} {otherwise inside : Work α} {t u : Traced α}
    (ht : a ∈ active → Performs active otherwise t)
    (hu : a ∉ active → Performs (a :: active) inside u) :
    Performs active (entering a otherwise inside) (if a ∈ active then t else u) := by
  intro notes
  by_cases ha : a ∈ active
  · have hentered : Instance.enter a ⟨active, notes⟩ = some (.ok false, ⟨active, notes⟩) :=
      if_pos ha
    rw [if_pos ha, ← ht ha notes]
    show Option.bind (Instance.enter a ⟨active, notes⟩) _ = _
    rw [hentered]
    rfl
  · have hentered : Instance.enter a ⟨active, notes⟩ = some (.ok true, ⟨a :: active, notes⟩) :=
      if_neg ha
    rw [if_neg ha]
    show Option.bind (Instance.enter a ⟨active, notes⟩) _ = _
    rw [hentered]
    show Option.bind (inside ⟨a :: active, notes⟩) _ = _
    rw [hu ha notes]
    show some (u.result, Instance.State.mk ((a :: active).erase a) _) = _
    rw [List.erase_cons_head]

/-! ## One level of the compiler -/

/-- An instance gives for the task of a call what the compiler gives, inside the same containers. -/
def Performed (g : Graph) (c : Call) : Prop :=
  match c.task with
  | .data v => Performs c.active (g.dataWork v) ((Descent.compiler g).data c.active v)
  | .element v => Performs c.active (g.elementWork v) ((Descent.compiler g).element c.active v)
  | .config v => ∀ tag,
    Performs c.active (g.configWork tag v) ((Descent.compiler g).config c.active tag v)
  | .children v =>
    Performs c.active (g.childrenWork v) ((Descent.compiler g).children c.active v)

variable {g : Graph}

theorem performs_attributes {data : Value → Traced Node} {entries : List (Value × Value)}
    (h : ∀ e ∈ entries, ¬ IsRaw g e.2 → Performs active (g.dataWork e.2) (data e.2)) :
    Performs active (g.attributesWork entries) (attributesWith g data entries) := by
  have hone : ∀ e ∈ entries, Performs active (g.attributeWork e.1 e.2)
      (attributeProperty g data e.1 e.2) := by
    intro e he
    refine (performs_except (g.code? e.2)).bind fun code hcode => ?_
    have hname : Performs active (liftM (propertyKey g e.1)) _ := performs_except (propertyKey g e.1)
    have hkey := fun node => hname.map fun key => Node.property key node
    have hdata : (∀ text, code ≠ some ⟨.raw, text⟩) →
        Performs active (g.dataWork e.2) (data e.2) := by
      intro hne
      refine h e he ?_
      rintro ⟨text, hraw⟩
      exact hne text (Except.ok.inj (hcode.symm.trans hraw))
    rcases code with _ | ⟨_ | _, text⟩
    · exact (hdata (by simp)).bind fun node _ => hkey node
    · exact (performs_traced (rawAttribute text)).bind fun node _ => hkey node
    · exact (hdata (by simp)).bind fun node _ => hkey node
  cases entries with
  | nil => exact performs_pure Node.null
  | cons e entries => exact (performs_mapM hone).map Node.object

section Level

variable {v : Value}

theorem performs_data (h : ∀ c, Calls g ⟨active, .data v⟩ c → Performed g c) :
    Performs active (g.dataWork v) ((Descent.compiler g).data active v) := by
  have hlevel : ((Descent.compiler g).next g).data active v = (Descent.compiler g).data active v :=
    Descent.next_compiler g ⟨active, .data v⟩
  rw [← hlevel, Graph.dataWork]
  refine (performs_except (g.view v)).bind fun view hv => ?_
  cases view with
  | sequence a items =>
    refine performs_entering (fun _ => performs_traced cyclic) fun ha => ?_
    exact (performs_mapM fun item hi => h _ (.dataItem hv ha hi)).map Node.array
  | mapping a entries =>
    refine performs_entering (fun _ => performs_traced cyclic) fun ha => ?_
    refine (performs_mapM fun e he => ?_).map Node.object
    have hvalue : Performs (a :: active) (g.dataWork e.2) _ := h _ (.dataEntry hv ha he)
    exact (performs_except (propertyKey g e.1)).bind fun key _ => hvalue.map (Node.property key)
  | other => exact (performs_except (g.display v)).map Node.text
  | text s => exact performs_except (interpolate s)
  | code c => exact performs_except (Snippet.parse c.text)
  | null | bool | number => exact performs_pure _

theorem performs_element (h : ∀ c, Calls g ⟨active, .element v⟩ c → Performed g c) :
    Performs active (g.elementWork v) ((Descent.compiler g).element active v) := by
  have hlevel : ((Descent.compiler g).next g).element active v =
      (Descent.compiler g).element active v := Descent.next_compiler g ⟨active, .element v⟩
  rw [← hlevel, Graph.elementWork]
  refine (performs_except (g.view v)).bind fun view hv => ?_
  cases view with
  | sequence a items =>
    refine performs_entering (fun _ => performs_traced cyclic) fun ha => ?_
    exact (performs_mapM fun item hi => h _ (.elementItem hv ha hi)).map Node.array
  | mapping a entries =>
    cases entries with
    | nil => exact performs_pure Node.null
    | cons e entries =>
      refine performs_entering (fun _ => performs_traced cyclic) fun ha => ?_
      have hconfig := h _ (.elementConfig hv ha)
      exact (performs_except (g.display e.1)).bind fun tag _ => hconfig tag
  | other => exact (performs_except (g.display v)).map Node.text
  | text s => exact performs_except (interpolate s)
  | code c => exact performs_except (Snippet.parse c.text)
  | null | bool | number => exact performs_pure _

theorem performs_config (h : ∀ c, Calls g ⟨active, .config v⟩ c → Performed g c) (tag : String) :
    Performs active (g.configWork tag v) ((Descent.compiler g).config active tag v) := by
  have hlevel : ((Descent.compiler g).next g).config active tag v =
      (Descent.compiler g).config active tag v := Descent.next_compiler g ⟨active, .config v⟩ tag
  rw [← hlevel, Graph.configWork]
  refine (performs_except (g.view v)).bind fun view hv => ?_
  have hcontent : isContent view = true → Performs active (g.childrenWork v) _ :=
    fun hc => h _ (.content hv hc)
  cases view with
  | mapping a entries =>
    refine performs_entering (fun _ => ?_) fun ha => ?_
    · exact (performs_traced (Traced.note .cyclic)).bind fun _ _ => performs_pure _
    · have hattributes : Performs (a :: active)
          (g.attributesWork (entries.filter (!isChildrenEntry ·)))
          (attributesWith g ((Descent.compiler g).data (a :: active))
            (entries.filter (!isChildrenEntry ·))) :=
        performs_attributes fun e he hr => h _ (.attributeValue hv ha he hr)
      have hrest := fun children => hattributes.map fun attributes =>
        createElement (tagReference tag) attributes children
      cases hf : entries.find? isChildrenEntry with
      | none => exact (performs_pure []).bind fun children _ => hrest children
      | some e =>
        have hchildren : Performs (a :: active) (g.childrenWork e.2) _ :=
          h _ (.children hv ha hf)
        exact hchildren.bind fun children _ => hrest children
  | null => exact performs_pure _
  | text s =>
    exact (performs_except (interpolate s)).map fun node =>
      createElement (tagReference tag) .null [node]
  | _ => exact (hcontent rfl).map (createElement (tagReference tag) .null)

theorem performs_children (h : ∀ c, Calls g ⟨active, .children v⟩ c → Performed g c) :
    Performs active (g.childrenWork v) ((Descent.compiler g).children active v) := by
  have hlevel : ((Descent.compiler g).next g).children active v =
      (Descent.compiler g).children active v := Descent.next_compiler g ⟨active, .children v⟩
  rw [← hlevel, Graph.childrenWork, Descent.next]
  cases hi : g.items? v with
  | some items =>
    simp only [hi]
    exact performs_mapM fun item hm => h _ (.child hi hm)
  | none =>
    have helement : Performs active (g.elementWork v) _ := h _ (.onlyChild hi)
    simp only [hi]
    exact helement.map fun node => [node]

end Level

/-- An instance does what the compiler does, on the whole way down. -/
theorem performed (g : Graph) (c : Call) : Performed g c := by
  -- no way down is endless, so that the calls that a call makes may be taken as performed
  induction c using (wellFounded_calls g).induction with
  | _ c ih =>
    obtain ⟨active, task⟩ := c
    cases task with
    | data v => exact performs_data ih
    | element v => exact performs_element ih
    | config v => exact performs_config ih
    | children v => exact performs_children ih

/-! ## From the top -/

theorem performs_convert (g : Graph) (v : Value) :
    Performs [] (g.dataWork v) (convert g v) := by
  rw [convert, ← free_nil]
  exact performed g ⟨[], .data v⟩

theorem performs_elementTop (g : Graph) (v : Value) :
    Performs [] (g.elementWork v) (element g v) := by
  rw [element, ← free_nil]
  exact performed g ⟨[], .element v⟩

theorem performs_childrenTop (g : Graph) (v : Value) :
    Performs [] (g.childrenWork v) (children g v) := by
  rw [children, ← free_nil]
  exact performed g ⟨[], .children v⟩

theorem performs_attributesFrom (g : Graph) (v : Value) :
    Performs [] (g.attributesFromWork v) (attributes g v) := by
  unfold Graph.attributesFromWork attributes attributesFrom
  split
  · exact performs_pure Node.null
  · cases g.entries? v with
    | some entries => exact performs_attributes fun e _ _ => performs_convert g e.2
    | none => exact performs_traced _

theorem performs_stateStatement (g : Graph) (config : List (Value × Value)) :
    Performs [] (g.stateWork config) (stateStatement (convert g) config) := by
  unfold Graph.stateWork stateStatement
  cases entry config "variable" with
  | container a => exact performs_pure Node.empty
  | scalar s =>
    cases s with
    | text name =>
      dsimp only
      split
      · exact performs_pure Node.empty
      · exact (performs_convert g _).bind fun initial _ => performs_pure _
    | _ => exact performs_pure Node.empty

theorem performs_hookStatement (g : Graph) (hook : Value) :
    Performs [] (g.hookWork hook) (hookStatement g hook) := by
  refine (performs_except (splitHook g hook)).bind fun parts _ => ?_
  rcases parts with _ | ⟨kind, config⟩
  · exact performs_pure Node.empty
  · dsimp only
    split
    · exact performs_stateStatement g _
    · split
      · exact performs_except (effectStatement g _)
      · exact (performs_traced (Traced.note _)).bind fun _ _ => performs_pure Node.empty

theorem performs_compile (g : Graph) (document : Value) (annotated : Bool) :
    Performs [] (g.compileWork document annotated) (compile g document annotated) := by
  have hprogram : Performs [] (g.programWork document) (program g document) := by
    refine (performs_traced (Traced.note _)).bind fun _ _ => ?_
    refine (performs_mapM fun hook _ => performs_hookStatement g hook).bind fun statements _ => ?_
    refine (performs_elementTop g _).bind fun rendered _ => ?_
    exact (performs_traced (moduleImports g _)).bind fun imported _ => performs_pure _
  exact hprogram.bind fun tree _ => performs_except (Script.moduleText annotated tree)

/-! ## Operations -/

/-- What the compiler gives for an operation. -/
def Operation.answer (annotated : Bool) : Operation → Traced Product
  | .element g v => return .node (← Component.element g v)
  | .children g v => return .nodes (← Component.children g v)
  | .attributes g v => return .node (← Component.attributes g v)
  | .data g v => return .node (← convert g v)
  | .interpolate text => return .node (← Component.interpolate text)
  | .tag text => return .node (tagReference text)
  | .key g v => return .node (← propertyKey g v)
  | .compile g document => return .text (← Component.compile g document annotated)

theorem performs_work (annotated : Bool) (op : Operation) :
    Performs [] (op.work annotated) (op.answer annotated) := by
  cases op with
  | element g v => exact (performs_elementTop g v).map Product.node
  | children g v => exact (performs_childrenTop g v).map Product.nodes
  | attributes g v => exact (performs_attributesFrom g v).map Product.node
  | data g v => exact (performs_convert g v).map Product.node
  | interpolate text => exact (performs_except (interpolate text)).map Product.node
  | tag text => exact performs_pure _
  | key g v => exact (performs_except (propertyKey g v)).map Product.node
  | compile g document => exact (performs_compile g document annotated).map Product.text

/-- A new instance gives what the compiler gives, and is as new afterwards. -/
theorem perform_fresh (annotated : Bool) (op : Operation) :
    Instance.perform ⟨annotated, []⟩ op = some (op.answer annotated, ⟨annotated, []⟩) := by
  rw [Instance.perform, performs_work annotated op []]
  rfl

theorem run_fresh (annotated : Bool) (ops : List Operation) :
    Instance.run ⟨annotated, []⟩ ops =
      some (ops.map fun op => (op.answer annotated, ⟨annotated, []⟩)) := by
  induction ops with
  | nil => rfl
  | cons op ops ih =>
    rw [Instance.run, perform_fresh]
    show Option.bind (Instance.run ⟨annotated, []⟩ ops) _ = _
    rw [ih]
    rfl

/-- **An instance keeps nothing from one operation to the next.** Whatever operations it performs, and
whichever of them end in a fault, after each one it is inside of no container, and for each one it
gives what a new instance gives.  In another order the same operations are given the same answers. -/
theorem run_answers_fresh (annotated : Bool) (ops : List Operation) :
    ∃ answers, Instance.run ⟨annotated, []⟩ ops = some answers ∧
      (∀ answer ∈ answers, answer.2 = ⟨annotated, []⟩) ∧
      List.Forall₂ (fun op answer => Instance.perform ⟨annotated, []⟩ op = some answer ∧
        answer.1 = op.answer annotated) ops answers ∧
      ∀ ops', ops.Perm ops' → ∃ answers', Instance.run ⟨annotated, []⟩ ops' = some answers' ∧
        (ops.zip answers).Perm (ops'.zip answers') := by
  refine ⟨_, run_fresh annotated ops, ?_, ?_, ?_⟩
  · exact List.forall_mem_map.mpr fun op _ => rfl
  · rw [List.forall₂_map_right_iff, List.forall₂_same]
    exact fun op _ => ⟨perform_fresh annotated op, rfl⟩
  · intro ops' hperm
    refine ⟨_, run_fresh annotated ops', ?_⟩
    rw [← List.map_prod_left_eq_zip, ← List.map_prod_left_eq_zip]
    exact hperm.map _

end Componentry.Component
