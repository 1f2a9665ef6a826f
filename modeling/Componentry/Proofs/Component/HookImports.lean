import Componentry.Proofs.Component.Totality

/-!
# The hooks that a module imports

The kind of a hook entry is the text of its first key (`HasKind`).  A document without import entries
gets one import, for the library and for the kinds of its hook entries.  That import is found by a
walk over the entries, and their statements are made by another one; both read an entry's kind in
the same way.

`Introduces g hooks names` says which names the first walk finds: the kinds of the entries, each once
and in the order in which they first occur.  It is kept by every entry (`Introduces.step`) and so holds
of the whole list (`introduces_usedHooks`).

**Main statement.** The module of a document without import entries imports every hook that a
statement of its function calls (`calls_imported_hooks`).
-/

namespace Componentry.Component

open Script (Node)

variable {g : Graph} {hook : Value} {hooks done : List Value} {names seen : List String}

/-! ## Kinds -/

/-- The entry is a map whose first key has this text. -/
def HasKind (g : Graph) (hook : Value) (kind : String) : Prop :=
  ∃ key config rest, g.entries? hook = some ((key, config) :: rest) ∧ g.display key = .ok kind

theorem HasKind.unique {kind kind' : String} (h : HasKind g hook kind) (h' : HasKind g hook kind') :
    kind = kind' := by
  obtain ⟨key, config, rest, he, hd⟩ := h
  obtain ⟨key', config', rest', he', hd'⟩ := h'
  rw [he] at he'
  cases he'
  rw [hd] at hd'
  exact Except.ok.inj hd'

theorem hasKind_of_splitHook {kind : String} {config : Value}
    (h : splitHook g hook = .ok (some (kind, config))) : HasKind g hook kind := by
  unfold splitHook at h
  split at h
  · next key config' rest he =>
    cases hd : g.display key with
    | error f => simp [hd, bind, Except.bind] at h
    | ok text =>
      simp only [hd, bind, Except.bind, pure, Except.pure, Except.ok.injEq, Option.some.injEq,
        Prod.mk.injEq] at h
      exact ⟨key, config', rest, he, h.1 ▸ hd⟩
  · cases h

theorem not_hasKind_of_splitHook {kind : String} (h : splitHook g hook = .ok none) :
    ¬ HasKind g hook kind := by
  rintro ⟨key, config, rest, he, hd⟩
  rw [splitHook, he] at h
  simp [hd, bind, Except.bind, pure, Except.pure] at h

/-! ## The kinds of a list of entries -/

/-- Some entry of kind `a` stands before all entries of kind `b`. -/
def OccursBefore (g : Graph) (hooks : List Value) (a b : String) : Prop :=
  ∃ before after, hooks = before ++ after ∧
    (∃ hook ∈ before, HasKind g hook a) ∧ ∀ hook ∈ before, ¬ HasKind g hook b

/-- The names are the kinds of the entries, each once and in the order of first occurrence. -/
structure Introduces (g : Graph) (hooks : List Value) (names : List String) : Prop where
  nodup : names.Nodup
  mem_iff : ∀ name, name ∈ names ↔ ∃ hook ∈ hooks, HasKind g hook name
  ordered : names.Pairwise (OccursBefore g hooks)

theorem OccursBefore.append {a b : String} (h : OccursBefore g done a b) (rest : List Value) :
    OccursBefore g (done ++ rest) a b := by
  obtain ⟨before, after, rfl, ha, hb⟩ := h
  exact ⟨before, after ++ rest, List.append_assoc _ _ _, ha, hb⟩

theorem introduces_nil (g : Graph) : Introduces g [] [] :=
  ⟨List.nodup_nil, by simp, List.Pairwise.nil⟩

/-- An entry whose kind, if it has one, is known already adds nothing. -/
theorem Introduces.skip (h : Introduces g done seen) (hk : ∀ kind, HasKind g hook kind → kind ∈ seen) :
    Introduces g (done ++ [hook]) seen := by
  refine ⟨h.nodup, fun name => ?_, h.ordered.imp fun hab => hab.append [hook]⟩
  rw [h.mem_iff]
  constructor
  · rintro ⟨hook', hm, hk'⟩
    exact ⟨hook', List.mem_append_left _ hm, hk'⟩
  · rintro ⟨hook', hm, hk'⟩
    rcases List.mem_append.mp hm with hm | hm
    · exact ⟨hook', hm, hk'⟩
    · obtain rfl := List.mem_singleton.mp hm
      exact (h.mem_iff name).mp (hk name hk')

/-- An entry of a new kind adds that kind at the end. -/
theorem Introduces.add {kind : String} (h : Introduces g done seen) (hk : HasKind g hook kind)
    (hnew : kind ∉ seen) : Introduces g (done ++ [hook]) (seen ++ [kind]) := by
  refine ⟨h.nodup.append (List.nodup_singleton kind) (by simpa using hnew), fun name => ?_, ?_⟩
  · simp only [List.mem_append, List.mem_singleton, h.mem_iff, or_and_right, exists_or,
      exists_eq_left]
    exact or_congr_right ⟨fun hn => hn ▸ hk, fun hn => hn.unique hk⟩
  · refine List.pairwise_append.mpr ⟨h.ordered.imp fun hab => hab.append [hook],
      List.pairwise_singleton _ _, fun a ha b hb => ?_⟩
    obtain rfl := List.mem_singleton.mp hb
    -- the entries met so far have the kind `a` among them, but not the new one
    exact ⟨done, [hook], rfl, (h.mem_iff a).mp ha, fun hook' hm hk' =>
      hnew ((h.mem_iff b).mpr ⟨hook', hm, hk'⟩)⟩

theorem Introduces.step {kind : String} {config : Value} (h : Introduces g done seen)
    (hs : splitHook g hook = .ok (some (kind, config))) :
    Introduces g (done ++ [hook]) (if seen.contains kind then seen else seen ++ [kind]) := by
  have hkind := hasKind_of_splitHook hs
  split
  · next hc =>
    exact h.skip fun kind' hk => hk.unique hkind ▸ List.contains_iff_mem.mp hc
  · next hc =>
    exact h.add hkind fun hm => hc (List.contains_iff_mem.mpr hm)

theorem introduces_usedHooksFrom : ∀ {hooks done : List Value} {seen : List String},
    Introduces g done seen →
      Ensures (usedHooksFrom g seen hooks) (Introduces g (done ++ hooks))
  | [], done, seen, h => by
    rw [List.append_nil]
    exact ensures_ok h
  | hook :: hooks, done, seen, h => by
    rw [usedHooksFrom, List.append_cons done hook hooks]
    refine Ensures.bind (fun parts hparts => hparts) fun parts hparts => ?_
    rcases parts with _ | ⟨kind, config⟩
    · exact introduces_usedHooksFrom (h.skip fun kind hk =>
        absurd hk (not_hasKind_of_splitHook hparts))
    · exact introduces_usedHooksFrom (h.step hparts)

theorem introduces_usedHooks (g : Graph) (hooks : List Value) :
    Ensures (usedHooks g hooks) (Introduces g hooks) :=
  introduces_usedHooksFrom (introduces_nil g)

/-! ## The hooks that statements call -/

/-- The statement calls the function with this name, to set up variables or for its effect. -/
inductive Invokes : Node → String → Prop
  | declaration {kind f : String} {declarators arguments : List Node} {target : Node}
    (h : .declarator target (some (.call (.name f) arguments)) ∈ declarators) :
    Invokes (.declaration kind declarators) f
  | expression {f : String} {arguments : List Node} :
    Invokes (.expression (.call (.name f) arguments)) f

theorem invokes_stateStatement {data : Value → Traced Node} (config : List (Value × Value)) :
    Ensures (stateStatement data config).result fun s => ∀ f, Invokes s f → f = "useState" := by
  unfold stateStatement
  split
  · split
    · exact ensures_pure (by rintro f ⟨⟩)
    · rw [Traced.result_bind]
      refine (ensures_any _).bind fun initial _ => ensures_pure fun f hf => ?_
      cases hf with
      | declaration h =>
        cases List.mem_singleton.mp h
        rfl
  · exact ensures_pure (by rintro f ⟨⟩)

theorem invokes_effectStatement (config : List (Value × Value)) :
    Ensures (effectStatement g config) fun s => ∀ f, Invokes s f → f = "useEffect" := by
  refine (ensures_any _).bind fun names _ => ensures_pure fun f hf => ?_
  cases hf with
  | expression => rfl

/-- The statement of an entry calls nothing but the hook that the entry is for. -/
theorem invokes_hookStatement (g : Graph) (hook : Value) :
    Ensures (hookStatement g hook).result fun s => ∀ f, Invokes s f → HasKind g hook f := by
  rw [result_hookStatement]
  refine Ensures.bind (fun parts hparts => hparts) fun parts hparts => ?_
  rcases parts with _ | ⟨kind, config⟩
  · exact ensures_pure (by rintro f ⟨⟩)
  · have hkind := hasKind_of_splitHook hparts
    dsimp only
    split
    · next hstate =>
      have hstate : kind = "useState" := by simpa using hstate
      exact (invokes_stateStatement _).imp fun s hs f hf => hs f hf ▸ hstate ▸ hkind
    · split
      · next heffect =>
        have heffect : kind = "useEffect" := by simpa using heffect
        exact (invokes_effectStatement _).imp fun s hs f hf => hs f hf ▸ heffect ▸ hkind
      · exact ensures_pure (by rintro f ⟨⟩)

/-! ## Modules -/

theorem result_moduleImports_nil {entries : List (Value × Value)}
    (h : ∀ items, g.listItems? (entry entries "imports") = some items → items = []) :
    (moduleImports g entries).result =
      (do return [reactImport (← usedHooks g (hookEntries g entries))]) := by
  have hnone : importEntries g entries = [] := by
    unfold importEntries
    cases hi : g.listItems? (entry entries "imports") with
    | none => rfl
    | some items => exact h items hi
  rw [moduleImports, hnone]
  cases hu : usedHooks g (hookEntries g entries) <;> simp [hookImport, hu] <;> rfl

/-- **A module imports every hook that it calls.** The module of a document without import entries
consists of one import, one function and the export of that function.  The import names the library and
then the kinds of the hook entries, each once and in the order of first occurrence; the function has
one statement for each entry, its own, and then returns the rendered element.  Whatever the statements
call is imported. -/
theorem calls_imported_hooks {document : Value} {tree : Node}
    (h : (program g document).result = .ok tree)
    (himports : ∀ items, g.listItems? (entry (fields g document) "imports") = some items →
      items = []) :
    ∃ names statements rendered,
      tree = .program
        [.importFrom
          (.defaultBinding (.name "React") :: names.map fun n => .namedBinding (.name n) (.name n))
          (.text "react"),
         .function (.name (componentName (fields g document))) [.name "props"]
          (.block (statements ++ [.result (some rendered)])),
         .exportDefault (.name (componentName (fields g document)))] ∧
      List.Forall₂ (fun hook s => (hookStatement g hook).result = .ok s)
        (hookEntries g (fields g document)) statements ∧
      (element g (entry (fields g document) "render")).result = .ok rendered ∧
      Introduces g (hookEntries g (fields g document)) names ∧
      ∀ s ∈ statements ++ [.result (some rendered)], ∀ f, Invokes s f → f ∈ names := by
  have hgives : Gives (program g document).result (· = tree) := ⟨tree, h, rfl⟩
  rw [result_program, result_moduleImports_nil himports] at hgives
  simp only [gives_bind_iff] at hgives
  obtain ⟨statements, hs, rendered, hrendered, names, hn, _, ⟨⟩, _, ⟨⟩, rfl⟩ := hgives
  have hstatements := ensures_mapM_each _ _ statements hs
  have hnames := introduces_usedHooks g _ names hn
  -- the statement of an entry calls only the entry's own kind, which is among the names
  have hcalls := (ensures_mapM (fun hook hm => (invokes_hookStatement g hook).imp fun s hs f hf =>
    (hnames.mem_iff f).mpr ⟨hook, hm, hs f hf⟩) statements hs).2
  refine ⟨names, statements, rendered, rfl, hstatements, hrendered, hnames, ?_⟩
  refine List.forall_mem_append.mpr ⟨hcalls, List.forall_mem_singleton.mpr ?_⟩
  rintro f ⟨⟩

/-- A counter whose hooks are two states, something that is no entry, an effect and an unknown hook,
with a text where the imports would be. -/
def hookedPage : Graph :=
  ⟨#[.map [(.text "hooks", .container 1), (.text "imports", .text "none"),
      (.text "render", .text "on")],
    .list [.container 2, .container 3, .text "useRef", .container 4, .container 5],
    .map [(.text "useState", .container 6)],
    .map [(.text "useState", .null)],
    .map [(.text "useEffect", .null)],
    .map [(.text "useMemo", .null)],
    .map [(.text "variable", .text "count"), (.text "initialValue", .scalar (.int 0))]]⟩

theorem calls_imported_hooks_hookedPage :
    (∀ items, hookedPage.listItems? (entry (fields hookedPage (.container 0)) "imports") = some items →
      items = []) ∧
    ∃ tree, (program hookedPage (.container 0)).result = .ok tree ∧
      ∃ (names : List String) (body : List Node),
        tree = .program
          [.importFrom
            (.defaultBinding (.name "React") ::
              names.map fun n => .namedBinding (.name n) (.name n))
            (.text "react"),
           .function (.name "Component") [.name "props"] (.block body),
           .exportDefault (.name "Component")] ∧
        ∀ s ∈ body, ∀ f, Invokes s f → f ∈ names := by
  have himports : hookedPage.listItems?
      (entry (fields hookedPage (.container 0)) "imports") = none := by
    with_unfolding_all rfl
  have hname : componentName (fields hookedPage (.container 0)) = "Component" := by
    with_unfolding_all rfl
  have hprogram : (program hookedPage (.container 0)).result = .ok (.program
      [reactImport ["useState", "useEffect", "useMemo"],
       .function (.name "Component") [.name "props"] (.block
        [.declaration "const" [.declarator (.arrayPattern [.name "count", .name "setCount"])
          (some (.call (.name "useState") [.number (.int 0)]))],
         .empty, .empty,
         .expression (.call (.name "useEffect") [.arrow [] (.block [.expression
          (.call (.member (.name "console") (.name "log")) [.text effectMessage])]), .array []]),
         .empty, .result (some (.text "on"))]),
       .exportDefault (.name "Component")]) := by
    with_unfolding_all rfl
  have hnone : ∀ items, hookedPage.listItems?
      (entry (fields hookedPage (.container 0)) "imports") = some items → items = [] := by
    rw [himports]
    rintro items ⟨⟩
  obtain ⟨names, statements, rendered, htree, -, -, -, hcalls⟩ := calls_imported_hooks hprogram hnone
  rw [hname] at htree
  exact ⟨hnone, _, hprogram, names, _, htree, hcalls⟩

end Componentry.Component
