import Componentry.Component.Module
import Componentry.Proofs.Component.Yield

/-!
# When a document is compiled

The compiler looks at a value of a document only where it has something to do for it.  It starts at
the rendered element and at the initial values of the state variables (`Root`) and goes down from
there; the values it looks at on the way are the inspected ones (`Inspected`).

**Main statement.** A document without long integers and long runs of digits is compiled just when no
inspected value is mistyped code (`compile_succeeds_iff`).

Imports, effects and the layout of the module add no faults of their own: of a short document they
are always printable (`gives_moduleImports`, `gives_hookStatement`).
-/

namespace Componentry.Component

open Relation (ReflTransGen)
open Script (Node Printable PrintableBinding PrintableStatement)

variable {g : Graph} {v : Value}

/-! ## Fields -/

/-- The entries of a value, none if it is no map. -/
def fields (g : Graph) (v : Value) : List (Value × Value) :=
  (g.entries? v).getD []

theorem Short.fields (h : Short g v) : ∀ e ∈ fields g v, Short g e.1 ∧ Short g e.2 := by
  unfold Component.fields Graph.entries?
  split
  · split
    · next hg => exact h.entries hg
    · simp
  · simp

theorem Short.field (h : Short g v) (key : String) : Short g (entry (Component.fields g v) key) :=
  short_entry (fun e he => (h.fields e he).2) key

theorem Short.listItems (h : Short g v) : ∀ item ∈ (g.listItems? v).getD [], Short g item := by
  unfold Graph.listItems?
  split
  · split
    · next hg => exact h.items (.inl hg)
    · simp
  · simp

/-! ## Hooks -/

/-- A hook entry declares a state variable, and this is its initial value. -/
def Initial (g : Graph) (hook v : Value) : Prop :=
  ∃ config name, splitHook g hook = .ok (some ("useState", config)) ∧
    entry (fields g config) "variable" = .text name ∧ name.isEmpty = false ∧
    v = entry (fields g config) "initialValue"

theorem gives_splitHook {hook : Value} (h : Short g hook) :
    Gives (splitHook g hook) fun parts => ∀ p, parts = some p → Short g p.2 := by
  unfold splitHook
  split
  · next kind config rest he =>
    have hentries := h.fields
    rw [Component.fields, he] at hentries
    obtain ⟨hkind, hconfig⟩ := hentries (kind, config) List.mem_cons_self
    refine Gives.bind hkind.succeeds_display fun text _ => gives_pure ?_
    rintro p ⟨⟩
    exact hconfig
  · exact gives_ok nofun

theorem result_hookStatement (g : Graph) (hook : Value) :
    (hookStatement g hook).result = (do
      let parts ← splitHook g hook
      match parts with
      | none => return .empty
      | some (kind, config) =>
        if kind == "useState" then (stateStatement (convert g) (fields g config)).result
        else if kind == "useEffect" then effectStatement g (fields g config)
        else return .empty) := by
  rw [hookStatement, hookStatementWith, Traced.result_bind, result_liftM]
  congr 1
  funext parts
  rcases parts with _ | ⟨kind, config⟩
  · rfl
  · dsimp only
    split
    · rfl
    · split
      · rfl
      · rfl

theorem gives_stateStatement {config : List (Value × Value)}
    (hi : ∀ name, entry config "variable" = .text name → name.isEmpty = false →
      Gives (convert g (entry config "initialValue")).result Printable) :
    Gives (stateStatement (convert g) config).result PrintableStatement := by
  unfold stateStatement
  split
  · next name hn =>
    split
    · exact gives_ok .empty
    · next he =>
      rw [Traced.result_bind]
      refine (hi name hn (by simpa using he)).bind fun initial hp => gives_pure ?_
      exact .declaration "const" [name, "set" ++ Text.capitalized name]
        (.call (.name _) (by simpa using hp))
  · exact gives_ok .empty

theorem gives_effectStatement {config : List (Value × Value)}
    (hs : Short g (entry config "dependencies")) :
    Gives (effectStatement g config) PrintableStatement := by
  have hnames : Gives (((g.listItems? (entry config "dependencies")).getD []).mapM fun d => do
      return Node.name (← g.display d)) fun names => ∀ n ∈ names, Printable n :=
    gives_mapM fun d hd => Gives.bind (hs.listItems d hd).succeeds_display fun text _ =>
      gives_pure (.name text)
  refine hnames.bind fun names hn => gives_pure (.expression (.call (.name _) ?_))
  have hlog : Printable (.call (.member (.name "console") (.name "log")) [.text effectMessage]) :=
    .call (.member (.name _) _) (by simp [Printable.text])
  have heffect := Printable.arrowBlock [] (List.forall_mem_singleton.mpr hlog)
  exact List.forall_mem_cons.mpr ⟨heffect, List.forall_mem_singleton.mpr (.array hn)⟩

/-- The statement of a hook entry is printable if the initial value in it is. -/
theorem gives_hookStatement {hook : Value} (hs : Short g hook)
    (hi : ∀ v, Initial g hook v → Gives (convert g v).result Printable) :
    Gives (hookStatement g hook).result PrintableStatement := by
  obtain ⟨parts, hparts, hshort⟩ := gives_splitHook hs
  rw [result_hookStatement]
  refine Gives.bind_of_eq hparts ?_
  rcases parts with _ | ⟨kind, config⟩
  · exact gives_ok .empty
  · dsimp only
    split
    · next hkind =>
      have hkind : kind = "useState" := by simpa using hkind
      subst hkind
      exact gives_stateStatement fun name hn he => hi _ ⟨config, name, hparts, hn, he, rfl⟩
    · split
      · exact gives_effectStatement ((hshort _ rfl).field _)
      · exact gives_ok .empty

theorem succeeds_initial {hook : Value} (h : Succeeds (hookStatement g hook).result)
    (hi : Initial g hook v) : Succeeds (convert g v).result := by
  obtain ⟨config, name, hparts, hn, he, rfl⟩ := hi
  rw [result_hookStatement, hparts] at h
  have hstate : Succeeds (stateStatement (convert g) (fields g config)).result := h
  rw [stateStatement, hn] at hstate
  dsimp only at hstate
  rw [he, if_neg Bool.false_ne_true, Traced.result_bind] at hstate
  exact hstate.first

/-! ## Imports -/

theorem succeeds_usedHooksFrom : ∀ (seen : List String) {hooks : List Value},
    (∀ hook ∈ hooks, Short g hook) → Succeeds (usedHooksFrom g seen hooks)
  | seen, [], _ => succeeds_ok seen
  | seen, hook :: hooks, h => by
    obtain ⟨hhook, hrest⟩ := List.forall_mem_cons.mp h
    rw [usedHooksFrom]
    refine (gives_splitHook hhook).succeeds.bind fun parts => ?_
    rcases parts with _ | ⟨kind, config⟩
    · exact succeeds_usedHooksFrom _ hrest
    · exact succeeds_usedHooksFrom _ hrest

theorem gives_hookImport {hooks : List Value} (hs : ∀ hook ∈ hooks, Short g hook) :
    Gives (hookImport g hooks) PrintableStatement := by
  refine Gives.bind (succeeds_usedHooksFrom [] hs) fun names _ => gives_pure ?_
  refine .importFrom (List.forall_mem_cons.mpr ⟨.default _, ?_⟩) reactModule
  exact List.forall_mem_map.mpr fun name _ => .named name name

theorem printable_bindings (g : Graph) (entries : List (Value × Value)) :
    ∀ b ∈ bindings g entries, PrintableBinding b := by
  unfold bindings
  refine List.forall_mem_append.mpr ⟨?_, ?_⟩
  · split
    · split
      · simp
      · exact List.forall_mem_singleton.mpr (.default _)
    · simp
  · intro b hb
    obtain ⟨named, -, hn⟩ := List.mem_filterMap.mp hb
    split at hn
    · split at hn
      · cases hn
      · cases hn
        exact .named _ _
    · cases hn

theorem exists_of_importOf? {spec : Value} {node : Node} (h : importOf? g spec = some node) :
    ∃ bindings source, node = .importFrom bindings (.text source) ∧
      ∀ b ∈ bindings, PrintableBinding b := by
  unfold importOf? at h
  split at h
  · split at h
    · cases h
      exact ⟨_, _, rfl, printable_bindings g _⟩
    · cases h
  · cases h

theorem gives_imports (g : Graph) : ∀ specs : List Value,
    Gives (imports g specs).result fun nodes => ∀ n ∈ nodes, PrintableStatement n
  | [] => gives_ok nofun
  | spec :: specs => by
    have hrest := gives_imports g specs
    rw [imports]
    split
    · next node hnode =>
      obtain ⟨bindings, source, rfl, hb⟩ := exists_of_importOf? hnode
      rw [Traced.result_bind]
      exact hrest.bind fun nodes hn =>
        gives_pure (List.forall_mem_cons.mpr ⟨.importFrom hb source, hn⟩)
    · exact hrest

/-- The imports of a short document are printable. -/
theorem gives_moduleImports {entries : List (Value × Value)} (hs : Short g (entry entries "hooks")) :
    Gives (moduleImports g entries).result fun nodes => ∀ n ∈ nodes, PrintableStatement n := by
  unfold moduleImports
  split
  · rw [Traced.result_bind, result_liftM]
    exact (gives_hookImport hs.listItems).bind fun node hn =>
      gives_pure (List.forall_mem_singleton.mpr hn)
  · exact gives_imports g _

/-! ## Modules -/

/-- The calls that the compiler starts with. -/
inductive Root (g : Graph) (document : Value) : Call → Prop
  | render : Root g document ⟨[], .element (entry (fields g document) "render")⟩
  | initial {hook v : Value} (hh : hook ∈ hookEntries g (fields g document))
    (hv : Initial g hook v) : Root g document ⟨[], .data v⟩

/-- The values of a document that the compiler looks at. -/
def Inspected (g : Graph) (document v : Value) : Prop :=
  ∃ root c, Root g document root ∧ ReflTransGen (Calls g) root c ∧ c.task.Inspects v

theorem result_program (g : Graph) (document : Value) :
    (program g document).result = (do
      let statements ← (hookEntries g (fields g document)).mapM fun hook =>
        (hookStatement g hook).result
      let rendered ← (element g (entry (fields g document) "render")).result
      let imported ← (moduleImports g (fields g document)).result
      let name := componentName (fields g document)
      return .program (imported ++
        [.function (.name name) [.name "props"] (.block (statements ++ [.result (some rendered)])),
         .exportDefault (.name name)])) := by
  rw [program, programWith]
  simp only [Traced.result_bind, Traced.result_mapM]
  rfl

/-- All calls that the compiler starts with succeed if it does. -/
theorem Root.yields_of_succeeds {document : Value} {root : Call} (hr : Root g document root)
    (h : Succeeds (program g document).result) : root.Yields g fun _ => True := by
  rw [result_program] at h
  obtain ⟨statements, hstatements, hrest⟩ := gives_bind_iff.mp h
  cases hr with
  | render =>
    rw [Call.Yields, free_nil]
    exact hrest.first
  | initial hh hv =>
    have hhook := succeeds_mapM_iff.mp h.first _ hh
    rw [Call.Yields, free_nil]
    exact succeeds_initial hhook hv

/-- The module of a short document is printable if all calls that the compiler starts with yield
printable nodes. -/
theorem gives_program {document : Value} (hs : Short g document)
    (hr : ∀ root, Root g document root → root.Yields g Printable) :
    Gives (program g document).result fun tree =>
      ∃ body, tree = .program body ∧ ∀ s ∈ body, PrintableStatement s := by
  have hhooks : ∀ hook ∈ hookEntries g (fields g document),
      Gives (hookStatement g hook).result PrintableStatement := by
    intro hook hh
    refine gives_hookStatement ((hs.field "hooks").listItems hook hh) fun v hv => ?_
    have hinitial := hr _ (.initial hh hv)
    rwa [Call.Yields, free_nil] at hinitial
  have hrender : Gives (element g (entry (fields g document) "render")).result Printable := by
    have helement := hr _ .render
    rwa [Call.Yields, free_nil] at helement
  rw [result_program]
  refine (gives_mapM hhooks).bind fun statements hstatements => hrender.bind fun rendered hp =>
    (gives_moduleImports (hs.field "hooks")).bind fun imported himported => gives_pure ⟨_, rfl, ?_⟩
  refine List.forall_mem_append.mpr ⟨himported, List.forall_mem_cons.mpr
    ⟨.function _ ["props"] ?_, List.forall_mem_singleton.mpr (.exportName _)⟩⟩
  exact List.forall_mem_append.mpr ⟨hstatements, List.forall_mem_singleton.mpr (.result hp)⟩

theorem Root.short {document : Value} {root : Call} (hr : Root g document root)
    (h : Short g document) : Short g root.task.value := by
  cases hr with
  | render => exact h.field "render"
  | initial hh hv =>
    obtain ⟨config, name, hparts, -, -, rfl⟩ := hv
    obtain ⟨parts, hparts', hshort⟩ := gives_splitHook ((h.field "hooks").listItems _ hh)
    cases hparts.symm.trans hparts'
    exact (hshort _ rfl).field "initialValue"

/-- **A document without long integers and long runs of digits is compiled just when the compiler
looks at no mistyped code in it.** -/
theorem compile_succeeds_iff (g : Graph) (document : Value) (h : Short g document)
    (annotated : Bool) :
    (∃ text, (compile g document annotated).result = .ok text) ↔
      ∀ v, Inspected g document v → ¬ MistypedCode g v := by
  rw [← succeeds_iff, compile, Traced.result_bind]
  constructor
  · rintro hc v ⟨root, c, hroot, hreach, hv⟩
    have hc' := (hroot.yields_of_succeeds hc.first).reaches hreach
    exact Graph.succeeds_view_iff.mp (hc'.view hv)
  · intro hv
    -- no way down from a root meets mistyped code, so that all of them yield printable nodes
    have hroots : ∀ root, Root g document root → root.Yields g Printable := fun root hroot =>
      Call.yields_of_reaches g root (hroot.short h) fun c v hreach hi =>
        Graph.succeeds_view_iff.mpr (hv v ⟨root, c, hroot, hreach, hi⟩)
    obtain ⟨tree, htree, body, rfl, hbody⟩ := gives_program h hroots
    exact Gives.bind_of_eq htree (Script.succeeds_moduleText annotated hbody)

/-- A page that is code with a list for its type. -/
def listTyped : Graph :=
  ⟨#[.map [(.text "render", .container 1)],
    .map [(.text "type", .container 2), (.text "code", .text "x")],
    .list []]⟩

theorem short_listTyped : Short listTyped (.container 0) := by
  refine Graph.All.of_containers ?_ 0
  have hlength : ∀ s ∈ ["render", "type", "code", "x"], s.toList.length ≤ Text.digitLimit := by
    decide
  have htext : ∀ s ∈ ["render", "type", "code", "x"], IsShort (.text s) := fun s hs =>
    Snippet.ShortRuns.of_length (hlength s hs)
  simpa [listTyped, Container.parts, Value.text] using htext

theorem mistypedCode_listTyped : MistypedCode listTyped (.container 1) := by
  refine ⟨1, .container 2, "x", rfl, .inl rfl, ?_⟩
  have hkind : listTyped.unfold (.container 2) = .list [] := by
    simp [listTyped, Graph.unfold, Graph.unfoldWithin, Graph.get?, Graph.addresses, List.range_succ]
  rw [hkind]
  exact ⟨.list [], fun items h => Tree.noConfusion h⟩

theorem not_compiled_listTyped : Short listTyped (.container 0) ∧
    ∀ annotated, ¬ ∃ text, (compile listTyped (.container 0) annotated).result = .ok text := by
  -- the rendered element itself is the mistyped code
  refine ⟨short_listTyped, fun annotated hc => ?_⟩
  have hinspected : Inspected listTyped (.container 0) (.container 1) :=
    ⟨_, _, .render, .refl, .inr (.inl rfl)⟩
  exact (compile_succeeds_iff listTyped (.container 0) short_listTyped annotated).mp hc _
    hinspected mistypedCode_listTyped

end Componentry.Component
