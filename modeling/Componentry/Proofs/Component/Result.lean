import Componentry.Component.Module

/-!
# Results of the compiler

The compiler gives a result or a fault, with notes.  The equations here say what the result is, part
by part, without the notes.
-/

namespace Componentry.Component

open Script (Node)

variable {g : Graph} (fresh : List Address)

@[simp] theorem result_liftM {α : Type} (r : Except Fault α) : (liftM r : Traced α).result = r :=
  rfl

theorem liftM_ok_bind {α β : Type} (a : α) (f : α → Traced β) :
    ((liftM (.ok a : Except Fault α) : Traced α) >>= f) = f a :=
  rfl

@[simp] theorem result_cyclic : cyclic.result = .ok .null := rfl

/-- A tag stands for a component or for itself. -/
theorem tagReference_eq (tag : String) :
    tagReference tag = .name tag ∨ tagReference tag = .text tag := by
  unfold tagReference
  split
  · split
    · exact .inl rfl
    · exact .inr rfl
  · exact .inr rfl

/-- A map that is no embedded code. -/
theorem view_mapping {a : Address} {entries : List (Value × Value)}
    (h : g.get? a = some (.map entries)) (hc : g.codeOfEntries? entries = .ok none) :
    g.view (.container a) = .ok (.mapping a entries) := by
  rw [Graph.view, h]
  dsimp only
  rw [hc]
  rfl

variable (g)

/-- What a value becomes as data. -/
theorem result_convertWithin (v : Value) :
    (convertWithin g fresh v).result = (do
      match ← g.view v with
      | .null => return .null
      | .bool b => return .bool b
      | .number n => return .number n
      | .text s => interpolate s
      | .code c => Snippet.parse c.text
      | .sequence a items =>
        if a ∈ fresh then
          return .array (← items.mapM fun item => (convertWithin g (fresh.erase a) item).result)
        else return .null
      | .mapping a entries =>
        if a ∈ fresh then
          return .object (← entries.mapM fun e => do
            let key ← propertyKey g e.1
            return Node.property key (← (convertWithin g (fresh.erase a) e.2).result))
        else return .null
      | .other => return .text (← g.display v)) := by
  rw [convertWithin, Traced.result_bind, result_liftM]
  congr 1
  funext view
  cases view with
  | sequence a items =>
    by_cases h : a ∈ fresh
    · simp only [dif_pos h, if_pos h, Traced.result_bind, Traced.result_mapM]
      rfl
    · simp only [dif_neg h, if_neg h, result_cyclic]
      rfl
  | mapping a entries =>
    by_cases h : a ∈ fresh
    · simp only [dif_pos h, if_pos h, Traced.result_bind, Traced.result_mapM, result_liftM]
      rfl
    · simp only [dif_neg h, if_neg h, result_cyclic]
      rfl
  | other => simp only [Traced.result_bind, result_liftM]; rfl
  | _ => rfl

/-- What a value becomes as part of a page. -/
theorem result_elementWithin (v : Value) :
    (elementWithin g fresh v).result = (do
      match ← g.view v with
      | .null => return .null
      | .bool b => return .bool b
      | .number n => return .number n
      | .text s => interpolate s
      | .code c => Snippet.parse c.text
      | .sequence a items =>
        if a ∈ fresh then
          return .array (← items.mapM fun item => (elementWithin g (fresh.erase a) item).result)
        else return .null
      | .mapping _ [] => return .null
      | .mapping a ((tag, config) :: _) =>
        if a ∈ fresh then do
          let tag ← g.display tag
          (elementOf g (fresh.erase a) tag config).result
        else return .null
      | .other => return .text (← g.display v)) := by
  rw [elementWithin, Traced.result_bind, result_liftM]
  congr 1
  funext view
  cases view with
  | sequence a items =>
    by_cases h : a ∈ fresh
    · simp only [dif_pos h, if_pos h, Traced.result_bind, Traced.result_mapM]
      rfl
    · simp only [dif_neg h, if_neg h, result_cyclic]
      rfl
  | mapping a entries =>
    cases entries with
    | nil => rfl
    | cons e rest =>
      by_cases h : a ∈ fresh
      · simp only [dif_pos h, if_pos h, Traced.result_bind, result_liftM]
      · simp only [dif_neg h, if_neg h, result_cyclic]
        rfl
  | other => simp only [Traced.result_bind, result_liftM]; rfl
  | _ => rfl

/-- What a tag and a configuration become. -/
theorem result_elementOf (tag : String) (config : Value) :
    (elementOf g fresh tag config).result = (do
      match ← g.view config with
      | .mapping a entries =>
        if a ∈ fresh then do
          let children ← (match entries.find? isChildrenEntry with
            | some (_, content) => (childrenWithin g (fresh.erase a) content).result
            | none => pure [])
          let attributes ← (attributesWithin g (fresh.erase a)
            (entries.filter (!isChildrenEntry ·))).result
          return createElement (tagReference tag) attributes children
        else return createElement (tagReference tag) .null [.null]
      | .null => return createElement (tagReference tag) .null [.null]
      | .text s => return createElement (tagReference tag) .null [← interpolate s]
      | _ =>
        return createElement (tagReference tag) .null (← (childrenWithin g fresh config).result)) := by
  rw [elementOf, Traced.result_bind, result_liftM]
  congr 1
  funext view
  cases view with
  | mapping a entries =>
    by_cases h : a ∈ fresh
    · simp only [dif_pos h, if_pos h]
      cases entries.find? isChildrenEntry with
      | none => simp only [Traced.result_bind]; rfl
      | some e => simp only [Traced.result_bind]; rfl
    · simp only [dif_neg h, if_neg h, Traced.result_bind]
      rfl
  | text s => simp only [Traced.result_bind, result_liftM]; rfl
  | null => rfl
  | _ => simp only [Traced.result_bind]; rfl

/-- What a content becomes. -/
theorem result_childrenWithin (content : Value) :
    (childrenWithin g fresh content).result =
      match g.items? content with
      | some items => items.mapM fun item => (elementWithin g fresh item).result
      | none => do return [← (elementWithin g fresh content).result] := by
  rw [childrenWithin]
  cases g.items? content with
  | some items => exact Traced.result_mapM _ _
  | none => exact Traced.result_bind _ _

/-- What the value of an attribute becomes, given the code that it is. -/
def attributeResult (data : Value → Traced Node) (value : Value) : Option Code → Except Fault Node
  | some ⟨.raw, code⟩ => (rawAttribute code).result
  | _ => (data value).result

/-- What an attribute becomes. -/
theorem result_attributeProperty (data : Value → Traced Node) (key value : Value) :
    (attributeProperty g data key value).result = (do
      let code ← g.code? value
      let node ← attributeResult data value code
      return .property (← propertyKey g key) node) := by
  rw [attributeProperty, Traced.result_bind, result_liftM]
  congr 1
  funext code
  rcases code with _ | ⟨_ | _, code⟩
  all_goals
    simp only [Traced.result_bind, result_liftM]
    rfl

/-- What the attributes of an element become. -/
theorem result_attributesWith (data : Value → Traced Node) (entries : List (Value × Value)) :
    (attributesWith g data entries).result =
      match entries with
      | [] => .ok .null
      | _ => do
        return .object (← entries.mapM fun e => (attributeProperty g data e.1 e.2).result) := by
  cases entries with
  | nil => rfl
  | cons e entries =>
    rw [attributesWith]
    · rw [Traced.result_bind, Traced.result_mapM]
      rfl
    · simp

end Componentry.Component
