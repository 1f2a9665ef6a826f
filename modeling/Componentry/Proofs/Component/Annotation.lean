import Componentry.Proofs.Component.Build
import Componentry.Proofs.Script.Annotation

/-!
# Annotated components

The only function declaration in the module of a document is the component itself, and its only
parameter is `props`.

**Main statement.** Annotations are printed as if they were parts of names, and in the module of a
document they add one thing, the type of `props` in the header of the component
(`annotation_is_surface`).
-/

namespace Componentry

namespace Script

/-! ## Built trees have no types -/

theorem map_typed_eq {es : List Node} (h : ∀ e ∈ es, e.typed = e) : es.map Node.typed = es :=
  (List.map_congr_left h).trans (List.map_id' es)

theorem typed_name (n : String) : (Node.name n).typed = .name n := by
  rw [Node.typed]

theorem map_typed_names (names : List String) :
    (names.map Node.name).map Node.typed = names.map .name :=
  map_typed_eq (List.forall_mem_map.mpr fun n _ => typed_name n)

theorem Node.IsReference.typed_eq {e : Node} (h : e.IsReference) : e.typed = e := by
  cases h with
  | name n => exact typed_name n
  | member o p => rw [Node.typed, typed_name, typed_name]

theorem Node.IsProperty.typed_eq {p : Node} (h : p.IsProperty) (hv : ∀ v ∈ p.parts, v.typed = v) :
    p.typed = p := by
  cases h with
  | name key value => rw [Node.typed, typed_name, hv value (by simp [Node.parts])]
  | text key value => rw [Node.typed, Node.typed, hv value (by simp [Node.parts])]

theorem Built.typed_eq {e : Node} (h : Built e) : e.typed = e := by
  induction h with
  | name | text | number | bool | null => rw [Node.typed]
  | @template raws last expressions hl _ ih =>
    have hsegments : (segments raws last).map Node.typed = segments raws last := by
      refine map_typed_eq (List.forall_mem_append.mpr ⟨List.forall_mem_map.mpr fun raw _ => ?_, ?_⟩)
      · rw [Node.typed]
      · exact List.forall_mem_singleton.mpr (by rw [Node.typed])
    rw [Node.typed, hsegments, map_typed_eq ih]
  | member o p => rw [Node.typed, typed_name, typed_name]
  | call hc _ ih => rw [Node.typed, hc.typed_eq, map_typed_eq ih]
  | binary operator left _ ih => rw [Node.typed, typed_name, ih]
  | arrow params _ ih => rw [Node.typed, map_typed_names, ih]
  | @arrowBlock params body _ ih =>
    have hbody : (body.map Node.expression).map Node.typed = body.map .expression :=
      map_typed_eq (List.forall_mem_map.mpr fun e he => by rw [Node.typed, ih e he])
    rw [Node.typed, map_typed_names, Node.typed, hbody]
  | array _ ih => rw [Node.typed, map_typed_eq ih]
  | object hp _ ih => rw [Node.typed, map_typed_eq fun p hm => (hp p hm).typed_eq (ih p hm)]

theorem PrintableBinding.typed_eq {b : Node} (h : PrintableBinding b) : b.typed = b := by
  cases h with
  | default n => rw [Node.typed, typed_name]
  | named n m => rw [Node.typed, typed_name, typed_name]

theorem BuiltStatement.typed_eq {s : Node} (h : BuiltStatement s) : s.typed = s := by
  cases h with
  | empty => rw [Node.typed]
  | result h | expression h => rw [Node.typed, h.typed_eq]
  | declaration kind names h =>
    rw [Node.typed, List.map_singleton, Node.typed, Node.typed, map_typed_names, h.typed_eq]
  | importFrom h source =>
    rw [Node.typed, map_typed_eq fun b hb => (h b hb).typed_eq, Node.typed]

/-- The type goes to the parameter of the component and nowhere else. -/
theorem typed_componentTree {name parameter : String} {imported body : List Node}
    (hi : ∀ s ∈ imported, BuiltStatement s) (hb : ∀ s ∈ body, BuiltStatement s) :
    (componentTree name parameter imported body).typed =
      componentTree name (parameter ++ ": any") imported body := by
  have himported : imported.map Node.typed = imported := map_typed_eq fun s hs => (hi s hs).typed_eq
  have hbody : body.map Node.typed = body := map_typed_eq fun s hs => (hb s hs).typed_eq
  have hfunction : (Node.function (.name name) [.name parameter] (.block body)).typed =
      .function (.name name) [.name (parameter ++ ": any")] (.block body) := by
    rw [Node.typed, typed_name, List.map_singleton, typed_name, Node.typed, hbody]
    rfl
  have hexport : (Node.exportDefault (.name name)).typed = .exportDefault (.name name) := by
    rw [Node.typed, typed_name]
  rw [componentTree, Node.typed, List.map_append, himported, List.map_cons, hfunction,
    List.map_singleton, hexport]
  rfl

/-! ## The text of a component -/

theorem statementTexts_append (annotated : Bool) (level : Int) : ∀ ss ts : List Node,
    statementTexts annotated level (ss ++ ts) = (do
      let heads ← statementTexts annotated level ss
      return heads ++ (← statementTexts annotated level ts))
  | [], ts => by
    rw [List.nil_append, statementTexts]
    exact (bind_pure _).symm
  | s :: ss, ts => by
    rw [List.cons_append, statementTexts, statementTexts, statementTexts_append annotated level ss ts]
    simp only [bind_assoc, pure_bind, List.cons_append]

theorem joined_append (sep : String) (t : String) (ts : List String) : ∀ heads : List String,
    Text.joined sep (heads ++ t :: ts) =
      String.join (heads.map (· ++ sep)) ++ Text.joined sep (t :: ts)
  | [] => String.empty_append.symm
  | h :: heads => by
    rw [List.cons_append, Text.joined, joined_append sep t ts heads, List.map_cons, String.join_cons]
    · exact String.append_assoc.symm
    · exact List.append_ne_nil_of_right_ne_nil heads (List.cons_ne_nil t ts)

/-- The text of a component's module before its parameter: a line for each import, then the header of
the function. -/
def componentHead (name : String) (heads : List String) : String :=
  String.join (heads.map (· ++ "\n")) ++ "function " ++ name ++ "("

/-- The text of a component's module after its parameter. -/
def componentTail (name : String) (lines : List String) : String :=
  ")" ++ " " ++ blockText 0 lines ++ "\n" ++ "export default " ++ name ++ ";"

theorem statementText_component (name parameter : String) (body : List Node) :
    statementText false 0 (.function (.name name) [.name parameter] (.block body)) = (do
      let lines ← statementTexts false 1 body
      return functionText 0 name [parameter] lines) := by
  rw [statementText, blockLines]
  change (do let lines ← statementTexts false 1 body
             return "" ++ functionText 0 name [parameter] lines) = _
  simp only [String.empty_append]

theorem statementText_exportName (name : String) :
    statementText false 0 (.exportDefault (.name name)) = .ok ("export default " ++ name ++ ";") := by
  rw [statementText_export false 0 rfl, expressionText]
  change Except.ok ("" ++ "export default " ++ name ++ ";") = _
  rw [String.empty_append]

theorem joined_component (name parameter : String) (heads lines : List String) :
    Text.joined "\n" (heads ++ [functionText 0 name [parameter] lines,
      "export default " ++ name ++ ";"]) =
      componentHead name heads ++ parameter ++ componentTail name lines := by
  rw [joined_append]
  simp only [Text.joined, functionText, parenthesized, componentHead, componentTail,
    String.append_assoc]

theorem moduleText_componentTree (name parameter : String) (imported body : List Node) :
    moduleText false (componentTree name parameter imported body) = (do
      let heads ← statementTexts false 0 imported
      let lines ← statementTexts false 1 body
      return componentHead name heads ++ parameter ++ componentTail name lines) := by
  rw [moduleText, componentTree, blockLines, statementTexts_append, statementTexts,
    statementText_component, statementTexts, statementText_exportName, statementTexts]
  simp only [bind_assoc, pure_bind, ← joined_component]
  rfl

/-- Annotations change the parameter of a built module and nothing else. -/
theorem moduleText_annotated {name parameter : String} {imported body : List Node}
    (hi : ∀ s ∈ imported, BuiltStatement s) (hb : ∀ s ∈ body, BuiltStatement s) (annotated : Bool) :
    moduleText annotated (componentTree name parameter imported body) = (do
      let heads ← statementTexts false 0 imported
      let lines ← statementTexts false 1 body
      return componentHead name heads ++ (if annotated then parameter ++ ": any" else parameter) ++
        componentTail name lines) := by
  cases annotated with
  | false => exact moduleText_componentTree name parameter imported body
  | true =>
    rw [moduleText_typed, typed_componentTree hi hb]
    exact moduleText_componentTree name (parameter ++ ": any") imported body

end Script

namespace Component

open Script (componentHead componentTail componentTree moduleText statementTexts)

/-- **Annotations are surface only.** An annotated module is printed as the tree in which the type
of every parameter of a function declaration is part of its name, faults included.  In the module of
a document, annotations are the type after `props` in the header of the component, and a document
that is not compiled with them is not compiled without them for the same reason. -/
theorem annotation_is_surface :
    (∀ tree, moduleText true tree = moduleText false tree.typed) ∧
      ∀ g document, (∃ fault, ∀ annotated, (compile g document annotated).result = .error fault) ∨
        ∃ imported heads lines, (moduleImports g (fields g document)).result = .ok imported ∧
          statementTexts false 0 imported = .ok heads ∧
          (compile g document false).result =
            .ok (componentHead (componentName (fields g document)) heads ++ "props" ++
              componentTail (componentName (fields g document)) lines) ∧
          (compile g document true).result =
            .ok (componentHead (componentName (fields g document)) heads ++ "props" ++ ": any" ++
              componentTail (componentName (fields g document)) lines) := by
  refine ⟨Script.moduleText_typed, fun g document => ?_⟩
  cases hprogram : (program g document).result with
  | error fault =>
    refine .inl ⟨fault, fun annotated => ?_⟩
    rw [compile, Traced.result_bind, hprogram]
    rfl
  | ok tree =>
    obtain ⟨imported, body, rfl, himports, hi, hb⟩ := ensures_program g document tree hprogram
    have hcompile : ∀ annotated, (compile g document annotated).result = moduleText annotated
        (componentTree (componentName (fields g document)) "props" imported body) := by
      intro annotated
      rw [compile, Traced.result_bind, hprogram]
      rfl
    simp only [Script.moduleText_annotated hi hb] at hcompile
    -- the imports and the body are printed alike, so both texts fail or none does
    cases hheads : statementTexts false 0 imported with
    | error fault =>
      refine .inl ⟨fault, fun annotated => ?_⟩
      rw [hcompile, hheads]
      rfl
    | ok heads =>
      cases hlines : statementTexts false 1 body with
      | error fault =>
        refine .inl ⟨fault, fun annotated => ?_⟩
        rw [hcompile, hheads, hlines]
        rfl
      | ok lines =>
        refine .inr ⟨imported, heads, lines, himports, hheads, ?_, ?_⟩
        · rw [hcompile, hheads, hlines]
          rfl
        · rw [hcompile, hheads, hlines]
          change Except.ok (_ ++ ("props" ++ ": any") ++ _) = _
          rw [← String.append_assoc]

end Component

end Componentry
