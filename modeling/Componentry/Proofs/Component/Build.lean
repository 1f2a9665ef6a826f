import Componentry.Proofs.Component.Totality
import Componentry.Proofs.Snippet.Language

/-!
# What the compiler builds

Whatever the document is, the nodes that the compiler makes of it are built ones: this holds of
snippets, of interpolated texts, of elements and data on the whole way down, of hooks and of imports.

**Main statement.** The module tree of a document can be printed if its integers can, and each of its
nodes has its shape (`program_shaped`).
-/

namespace Componentry

open Script (Node Built BuiltProperty BuiltStatement componentTree)

/-! ## Snippets -/

namespace Snippet

open Text

theorem Term.built {e : Node} (h : Term e) : Built e := by
  induction h with
  | name s => exact .name s
  | text s => exact .text s
  | integer n => exact .number _
  | member field => exact .member _ field
  | call hf ha ih => exact .call (.name _) ih
  | binary ho hl hr ih => exact .binary _ _ ih

theorem Answer.built {e : Node} (h : Answer e) : Built e := by
  cases h with
  | term h => exact h.built
  | @arrow params _ _ hb => exact .arrow params hb.built
  | @arrowBlock params _ => exact @Built.arrowBlock params [] (List.forall_mem_nil _)

theorem ensures_ofChars (cs : List Char) : Ensures (ofChars cs) Built :=
  (ensures_ofChars_answer cs).imp fun _ h => h.built

end Snippet

namespace Component

variable {g : Graph}

/-! ## Texts and code -/

theorem ensures_interpolate (s : String) : Ensures (interpolate s) Built := by
  unfold interpolate
  split
  · exact ensures_ok (.text s)
  · next parts tail _ _ =>
    have hparts : ∀ part ∈ parts, Ensures (Snippet.ofChars part.2) Built :=
      fun part _ => Snippet.ensures_ofChars part.2
    refine (ensures_mapM hparts).bind fun expressions he => ensures_pure ?_
    have hlength : (parts.map fun part => String.ofList part.1).length = expressions.length :=
      (List.length_map _).trans he.1.symm
    have htemplate := Built.template (String.ofList tail) hlength he.2
    simpa [Script.segments, Function.comp_def] using htemplate

theorem ensures_rawAttribute (code : String) : Ensures (rawAttribute code).result Built := by
  unfold rawAttribute
  split
  · next node hnode => exact ensures_ok (Snippet.ensures_ofChars _ node hnode)
  · exact ensures_ok (.text code)

/-! ## Data -/

theorem ensures_propertyKey (g : Graph) (key : Value) :
    Ensures (propertyKey g key) fun node =>
      ∀ value, Built value → BuiltProperty (.property node value) := by
  refine (ensures_any (g.display key)).bind fun text _ => ensures_pure fun value hv => ?_
  split
  · exact ⟨.name text value, List.forall_mem_cons.mpr
      ⟨.name text, List.forall_mem_singleton.mpr hv⟩⟩
  · exact ⟨.text text value, List.forall_mem_cons.mpr
      ⟨.text text, List.forall_mem_singleton.mpr hv⟩⟩

theorem ensures_convertWithin (g : Graph) (fresh : List Address) (v : Value) :
    Ensures (convertWithin g fresh v).result Built := by
  rw [result_convertWithin]
  refine (ensures_any (g.view v)).bind fun view _ => ?_
  cases view with
  | null => exact ensures_ok .null
  | bool b => exact ensures_ok (.bool b)
  | number n => exact ensures_ok (.number n)
  | text s => exact ensures_interpolate s
  | code c => exact Snippet.ensures_ofChars _
  | sequence a items =>
    dsimp only
    split
    · exact (ensures_mapM fun item _ => ensures_convertWithin g (fresh.erase a) item).bind
        fun nodes hn => ensures_pure (.array hn.2)
    · exact ensures_ok .null
  | mapping a entries =>
    dsimp only
    split
    · refine (ensures_mapM fun e _ => ?_).bind fun properties hp =>
        ensures_pure (Script.built_object hp.2)
      exact (ensures_propertyKey g e.1).bind fun key hk =>
        (ensures_convertWithin g (fresh.erase a) e.2).bind fun node hn => ensures_pure (hk node hn)
    · exact ensures_ok .null
  | other => exact (ensures_any (g.display v)).bind fun text _ => ensures_pure (.text text)
termination_by fresh.length
decreasing_by all_goals exact length_erase_lt (by assumption)

theorem ensures_attributeProperty {data : Value → Traced Node}
    (h : ∀ v, Ensures (data v).result Built) (key value : Value) :
    Ensures (attributeProperty g data key value).result BuiltProperty := by
  rw [result_attributeProperty]
  refine (ensures_any (g.code? value)).bind fun code _ => ?_
  have hnode : Ensures (attributeResult data value code) Built := by
    rcases code with _ | ⟨_ | _, text⟩
    · exact h value
    · exact ensures_rawAttribute text
    · exact h value
  exact hnode.bind fun node hn => (ensures_propertyKey g key).bind fun key hk =>
    ensures_pure (hk node hn)

theorem ensures_attributesWith {data : Value → Traced Node}
    (h : ∀ v, Ensures (data v).result Built) (entries : List (Value × Value)) :
    Ensures (attributesWith g data entries).result Built := by
  rw [result_attributesWith]
  split
  · exact ensures_ok .null
  · exact (ensures_mapM fun e _ => ensures_attributeProperty h e.1 e.2).bind fun properties hp =>
      ensures_pure (Script.built_object hp.2)

/-! ## Elements -/

theorem built_createElement (tag : String) {attributes : Node} {children : List Node}
    (ha : Built attributes) (hc : ∀ c ∈ children, Built c) :
    Built (createElement (tagReference tag) attributes children) := by
  have htag : Built (tagReference tag) := by
    rcases tagReference_eq tag with h | h
    · rw [h]
      exact .name tag
    · rw [h]
      exact .text tag
  exact .call (.member _ _) (List.forall_mem_cons.mpr ⟨htag, List.forall_mem_cons.mpr ⟨ha, hc⟩⟩)

-- the recursion is the one of the compiler, with its measures
mutual

theorem ensures_elementWithin (g : Graph) (fresh : List Address) (v : Value) :
    Ensures (elementWithin g fresh v).result Built := by
  rw [result_elementWithin]
  refine (ensures_any (g.view v)).bind fun view _ => ?_
  cases view with
  | null => exact ensures_ok .null
  | bool b => exact ensures_ok (.bool b)
  | number n => exact ensures_ok (.number n)
  | text s => exact ensures_interpolate s
  | code c => exact Snippet.ensures_ofChars _
  | sequence a items =>
    dsimp only
    split
    · exact (ensures_mapM fun item _ => ensures_elementWithin g (fresh.erase a) item).bind
        fun nodes hn => ensures_pure (.array hn.2)
    · exact ensures_ok .null
  | mapping a entries =>
    cases entries with
    | nil => exact ensures_ok .null
    | cons e entries =>
      dsimp only
      split
      · exact (ensures_any (g.display e.1)).bind fun tag _ =>
          ensures_elementOf g (fresh.erase a) tag e.2
      · exact ensures_ok .null
  | other => exact (ensures_any (g.display v)).bind fun text _ => ensures_pure (.text text)
termination_by 3 * fresh.length
decreasing_by
  all_goals
    have := length_erase_lt (by assumption)
    omega

theorem ensures_elementOf (g : Graph) (fresh : List Address) (tag : String) (config : Value) :
    Ensures (elementOf g fresh tag config).result Built := by
  rw [result_elementOf]
  refine (ensures_any (g.view config)).bind fun view _ => ?_
  have hplain : Built (createElement (tagReference tag) .null [.null]) :=
    built_createElement tag .null (List.forall_mem_singleton.mpr .null)
  have hcontent := (ensures_childrenWithin g fresh config).bind fun nodes hn =>
    ensures_pure (built_createElement tag .null hn)
  cases view with
  | mapping a entries =>
    dsimp only
    split
    · have hchildren : Ensures (match entries.find? isChildrenEntry with
          | some (_, content) => (childrenWithin g (fresh.erase a) content).result
          | none => pure []) fun nodes => ∀ n ∈ nodes, Built n := by
        split
        · exact ensures_childrenWithin g (fresh.erase a) _
        · exact ensures_pure (List.forall_mem_nil _)
      have hattributes := ensures_attributesWith (g := g) (ensures_convertWithin g (fresh.erase a))
        (entries.filter (!isChildrenEntry ·))
      exact hchildren.bind fun children hc => hattributes.bind fun attributes ha =>
        ensures_pure (built_createElement tag ha hc)
    · exact ensures_ok hplain
  | null => exact ensures_ok hplain
  | text s =>
    exact (ensures_interpolate s).bind fun node hn =>
      ensures_pure (built_createElement tag .null (List.forall_mem_singleton.mpr hn))
  | _ => exact hcontent
termination_by 3 * fresh.length + 2
decreasing_by
  · omega
  · have := length_erase_lt (by assumption)
    omega

theorem ensures_childrenWithin (g : Graph) (fresh : List Address) (content : Value) :
    Ensures (childrenWithin g fresh content).result fun nodes => ∀ n ∈ nodes, Built n := by
  rw [result_childrenWithin]
  split
  · next items _ =>
    exact fun nodes h => (ensures_mapM (fun item _ => ensures_elementWithin g fresh item) nodes h).2
  · exact (ensures_elementWithin g fresh content).bind fun node hn =>
      ensures_pure (List.forall_mem_singleton.mpr hn)
termination_by 3 * fresh.length + 1
decreasing_by all_goals omega

end

/-! ## Hooks -/

theorem ensures_stateStatement (g : Graph) (config : List (Value × Value)) :
    Ensures (stateStatement (convert g) config).result BuiltStatement := by
  unfold stateStatement
  split
  · next name _ =>
    split
    · exact ensures_ok .empty
    · rw [Traced.result_bind]
      refine (ensures_convertWithin g _ _).bind fun initial hi => ensures_pure ?_
      exact .declaration "const" [name, "set" ++ Text.capitalized name]
        (.call (.name _) (List.forall_mem_singleton.mpr hi))
  · exact ensures_ok .empty

theorem ensures_effectStatement (g : Graph) (config : List (Value × Value)) :
    Ensures (effectStatement g config) BuiltStatement := by
  have hname : ∀ d, Ensures (do return Node.name (← g.display d)) Built := fun d =>
    (ensures_any (g.display d)).bind fun text _ => ensures_pure (.name text)
  refine (ensures_mapM fun d _ => hname d).bind fun names hn =>
    ensures_pure (.expression (.call (.name _) ?_))
  have hlog : Built (.call (.member (.name "console") (.name "log")) [.text effectMessage]) :=
    .call (.member _ _) (List.forall_mem_singleton.mpr (.text _))
  have heffect := Built.arrowBlock [] (List.forall_mem_singleton.mpr hlog)
  exact List.forall_mem_cons.mpr ⟨heffect, List.forall_mem_singleton.mpr (.array hn.2)⟩

theorem ensures_hookStatement (g : Graph) (hook : Value) :
    Ensures (hookStatement g hook).result BuiltStatement := by
  rw [result_hookStatement]
  refine (ensures_any (splitHook g hook)).bind fun parts _ => ?_
  rcases parts with _ | ⟨kind, config⟩
  · exact ensures_ok .empty
  · dsimp only
    split
    · exact ensures_stateStatement g _
    · split
      · exact ensures_effectStatement g _
      · exact ensures_ok .empty

/-! ## Imports -/

theorem ensures_hookImport (g : Graph) (hooks : List Value) :
    Ensures (hookImport g hooks) BuiltStatement := by
  refine (ensures_any (usedHooks g hooks)).bind fun names _ => ensures_pure ?_
  refine .importFrom (List.forall_mem_cons.mpr ⟨.default _, ?_⟩) reactModule
  exact List.forall_mem_map.mpr fun name _ => .named name name

theorem ensures_imports (g : Graph) : ∀ specs : List Value,
    Ensures (imports g specs).result fun nodes => ∀ n ∈ nodes, BuiltStatement n
  | [] => ensures_ok (List.forall_mem_nil _)
  | spec :: specs => by
    have hrest := ensures_imports g specs
    rw [imports]
    split
    · next node hnode =>
      obtain ⟨bindings, source, rfl, hb⟩ := exists_of_importOf? hnode
      rw [Traced.result_bind]
      exact hrest.bind fun nodes hn =>
        ensures_pure (List.forall_mem_cons.mpr ⟨.importFrom hb source, hn⟩)
    · exact hrest

theorem ensures_moduleImports (g : Graph) (entries : List (Value × Value)) :
    Ensures (moduleImports g entries).result fun nodes => ∀ n ∈ nodes, BuiltStatement n := by
  unfold moduleImports
  split
  · rw [Traced.result_bind, result_liftM]
    exact (ensures_hookImport g _).bind fun node hn =>
      ensures_pure (List.forall_mem_singleton.mpr hn)
  · exact ensures_imports g _

/-! ## Modules -/

/-- The module tree of a document is that of its component, and all of it is built. -/
theorem ensures_program (g : Graph) (document : Value) :
    Ensures (program g document).result fun tree => ∃ imported body,
      tree = componentTree (componentName (fields g document)) "props" imported body ∧
      (moduleImports g (fields g document)).result = .ok imported ∧
      (∀ s ∈ imported, BuiltStatement s) ∧ ∀ s ∈ body, BuiltStatement s := by
  rw [result_program]
  refine (ensures_mapM fun hook _ => ensures_hookStatement g hook).bind fun statements hs => ?_
  refine (ensures_elementWithin g _ _).bind fun rendered hr => ?_
  have himports : Ensures (moduleImports g (fields g document)).result fun imported =>
      (moduleImports g (fields g document)).result = .ok imported ∧
        ∀ s ∈ imported, BuiltStatement s :=
    fun imported h => ⟨h, ensures_moduleImports g _ imported h⟩
  refine himports.bind fun imported hi => ensures_pure ⟨imported, _, rfl, hi.1, hi.2, ?_⟩
  exact List.forall_mem_append.mpr ⟨hs.2, List.forall_mem_singleton.mpr (.result hr)⟩

/-- **What the compiler builds can be printed.** If the integers in the module tree of a document
have few enough digits, the tree has a text, annotated or not; and each of its nodes has its shape. -/
theorem program_shaped {g : Graph} {document : Value} {tree : Node}
    (h : (program g document).result = .ok tree) :
    (tree.All Node.HasFewDigits → ∀ annotated, ∃ text, Script.moduleText annotated tree = .ok text) ∧
      tree.All Node.Shaped := by
  obtain ⟨imported, body, rfl, -, hi, hb⟩ := ensures_program g document tree h
  refine ⟨fun hfew annotated => ?_, Script.shaped_componentTree hi hb⟩
  exact succeeds_iff.mp (Script.succeeds_moduleText_componentTree hi hb annotated hfew)

/-- A paragraph with a sum in its text. -/
def sumPage : Graph :=
  ⟨#[.map [(.text "render", .container 1)], .map [(.text "p", .text "n = \x7bn + 1\x7d")]]⟩

theorem program_shaped_sumPage : ∃ tree, (program sumPage (.container 0)).result = .ok tree ∧
    (∀ annotated, ∃ text, Script.moduleText annotated tree = .ok text) ∧
      tree.All Node.Shaped := by
  have hprogram : (program sumPage (.container 0)).result = .ok (componentTree "Component" "props"
      [.importFrom [.defaultBinding (.name "React")] (.text "react")]
      [.result (some (createElement (.text "p") .null [.template
        [.segment "n = " false, .segment "" true]
        [.binary "+" (.name "n") (.number (.int 1))]]))]) := by
    with_unfolding_all rfl
  obtain ⟨hprinted, hshaped⟩ := program_shaped hprogram
  refine ⟨_, hprogram, hprinted ?_, hshaped⟩
  have hone : Script.fewDigits 1 := by
    decide
  simpa [Node.All.iff_forall_parts, componentTree, createElement, Node.parts, Node.HasFewDigits]
    using hone

end Component

end Componentry
