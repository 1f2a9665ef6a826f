import Componentry.Component.Module

/-!
# Instances

An instance of the compiler performs one operation after another.  It remembers the containers that
it is inside of: an operation enters a container before it goes to what is in it, and leaves it when
the work inside has ended, in a result or in a fault.  A container that an instance is inside of
already becomes `null`.

## Work without a bound

Nothing but the containers that are entered keeps the work from going on forever, and which ones are
entered is known only while the work is done.  So the work is defined as a partial function, where
`none` stands for work without an end.
-/

namespace Componentry

namespace Component.Instance

/-! ## Work -/

/-- What an instance carries along while it works: the containers that it is inside of, the last one
first, and the notes that it has made. -/
structure State where
  active : List Address
  notes : List Note := []

/-- Steps that change the state, unless they have no end. -/
abbrev Steps := StateT State Option

/-- Work that ends in a result or in a fault; both leave a state behind. -/
abbrev Work := ExceptT Fault Steps

instance : MonadLift Traced Work where
  monadLift x := fun s => some (x.result, { s with notes := s.notes ++ x.notes })

/-- Enters the container at an address, unless the instance is inside of it. -/
def enter (a : Address) : Work Bool := fun s =>
  if a ∈ s.active then some (.ok false, s)
  else some (.ok true, { s with active := a :: s.active })

/-- Leaves the container at an address. -/
def leave (a : Address) : Steps Unit := fun s =>
  some ((), { s with active := s.active.erase a })

/-- Does the work `inside` in the container at an address, and `otherwise` if the instance is inside
of it already.  The container is left also when the work ends in a fault. -/
abbrev entering {α : Type} (a : Address) (otherwise inside : Work α) : Work α := do
  if ← enter a then
    ((inside.run <* leave a : Steps (Except Fault α)) : Work α)
  else otherwise

end Component.Instance

open Script (Node)
open Component
open Component.Instance

/-! ## Data -/

/-- A value as data. -/
def Graph.dataWork (g : Graph) (v : Value) : Work Node := do
  match ← g.view v with
  | .null => return .null
  | .bool b => return .bool b
  | .number n => return .number n
  | .text s => interpolate s
  | .code c => Snippet.parse c.text
  | .sequence a items =>
    entering a cyclic do
      return .array (← items.mapM fun item => g |>.dataWork item)
  | .mapping a entries =>
    entering a cyclic do
      return .object (← entries.mapM fun e => do
        let key ← propertyKey g e.1
        return .property key (← g |>.dataWork e.2))
  | .other => return .text (← g.display v)
partial_fixpoint

/-- One attribute: its value, then its key. -/
def Graph.attributeWork (g : Graph) (key value : Value) : Work Node := do
  let node ←
    match ← g.code? value with
    | some ⟨.raw, code⟩ => rawAttribute code
    | _ => g.dataWork value
  return .property (← propertyKey g key) node

/-- The attributes of an element. -/
def Graph.attributesWork (g : Graph) (entries : List (Value × Value)) : Work Node :=
  match entries with
  | [] => return .null
  | _ => do return .object (← entries.mapM fun e => g.attributeWork e.1 e.2)

/-! ## Elements -/

mutual

/-- A value as part of a page. -/
def Graph.elementWork (g : Graph) (v : Value) : Work Node := do
  match ← g.view v with
  | .null => return .null
  | .bool b => return .bool b
  | .number n => return .number n
  | .text s => interpolate s
  | .code c => Snippet.parse c.text
  | .sequence a items =>
    entering a cyclic do
      return .array (← items.mapM fun item => g |>.elementWork item)
  | .mapping _ [] => return .null
  | .mapping a (e :: _) =>
    entering a cyclic do
      let tag ← g.display e.1
      g |>.configWork tag e.2
  | .other => return .text (← g.display v)
partial_fixpoint

/-- The element with a tag and a configuration. -/
def Graph.configWork (g : Graph) (tag : String) (v : Value) : Work Node := do
  match ← g.view v with
  | .mapping a entries =>
    entering a
      (do
        Traced.note .cyclic
        return createElement (tagReference tag) .null [.null])
      (do
        let children ←
          match entries.find? isChildrenEntry with
          | some e => g |>.childrenWork e.2
          | none => pure []
        let attributes ← g.attributesWork (entries.filter (!isChildrenEntry ·))
        return createElement (tagReference tag) attributes children)
  | .null => return createElement (tagReference tag) .null [.null]
  | .text s => return createElement (tagReference tag) .null [← interpolate s]
  | _ => return createElement (tagReference tag) .null (← g |>.childrenWork v)
partial_fixpoint

/-- The children that a value stands for: the items of a list or a tuple, or the value itself. -/
def Graph.childrenWork (g : Graph) (v : Value) : Work (List Node) :=
  match g.items? v with
  | some items => items.mapM fun item => g |>.elementWork item
  | none => do return [← g |>.elementWork v]
partial_fixpoint

end

/-- The attributes that a value stands for; it has to be a map, unless it counts as nothing. -/
def Graph.attributesFromWork (g : Graph) (v : Value) : Work Node :=
  if g.isVoid v then return .null
  else
    match g.entries? v with
    | some entries => g.attributesWork entries
    | none => Traced.lift (.error (.noMember (g.fullTypeName v) "items"))

/-! ## Modules -/

/-- A state variable with its setter and its initial value. -/
def Graph.stateWork (g : Graph) (config : List (Value × Value)) : Work Node :=
  match entry config "variable" with
  | .scalar (.text name) =>
    if name.isEmpty then return .empty
    else do
      let initial ← g.dataWork (entry config "initialValue")
      return .declaration "const"
        [.declarator (.arrayPattern [.name name, .name ("set" ++ Text.capitalized name)])
          (some (.call (.name "useState") [initial]))]
  | _ => return .empty

/-- The statement of a hook entry. -/
def Graph.hookWork (g : Graph) (hook : Value) : Work Node := do
  match ← splitHook g hook with
  | none => return .empty
  | some (kind, config) =>
    let config := (g.entries? config).getD []
    if kind == "useState" then g.stateWork config
    else if kind == "useEffect" then effectStatement g config
    else
      Traced.note (.unsupportedHook kind)
      return .empty

/-- The module tree of a document. -/
def Graph.programWork (g : Graph) (document : Value) : Work Node := do
  let entries := (g.entries? document).getD []
  let name := componentName entries
  let hooks := hookEntries g entries
  Traced.note (.building (!hooks.isEmpty) name)
  let statements ← hooks.mapM fun hook => g.hookWork hook
  let rendered ← g.elementWork (entry entries "render")
  let imported ← moduleImports g entries
  return .program (imported ++
    [.function (.name name) [.name "props"] (.block (statements ++ [.result (some rendered)])),
     .exportDefault (.name name)])

/-- The source text of a document's module. -/
def Graph.compileWork (g : Graph) (document : Value) (annotated : Bool) : Work String := do
  let tree ← g.programWork document
  Script.moduleText annotated tree

namespace Component

/-! ## Operations -/

/-- What an instance can be asked for.  Each operation brings the document that its value is of. -/
inductive Operation where
  | element (g : Graph) (v : Value)
  | children (g : Graph) (v : Value)
  | attributes (g : Graph) (v : Value)
  | data (g : Graph) (v : Value)
  | interpolate (text : String)
  | tag (text : String)
  | key (g : Graph) (v : Value)
  | compile (g : Graph) (document : Value)

/-- What an operation gives: a node, several nodes, or the text of a module. -/
inductive Product where
  | node (n : Node)
  | nodes (ns : List Node)
  | text (s : String)

/-- The work of an operation. -/
def Operation.work (annotated : Bool) : Operation → Instance.Work Product
  | .element g v => return .node (← g.elementWork v)
  | .children g v => return .nodes (← g.childrenWork v)
  | .attributes g v => return .node (← g.attributesFromWork v)
  | .data g v => return .node (← g.dataWork v)
  | .interpolate text => return .node (← Component.interpolate text)
  | .tag text => return .node (tagReference text)
  | .key g v => return .node (← propertyKey g v)
  | .compile g document => return .text (← g.compileWork document annotated)

/-- An instance: whether its modules carry types, and the containers that it is inside of. -/
structure Instance where
  annotated : Bool
  active : List Address := []

namespace Instance

/-- What an instance gives for an operation, and the instance after it. -/
def perform (i : Instance) (op : Operation) : Option (Traced Product × Instance) := do
  let (result, state) ← op.work i.annotated { active := i.active }
  return (⟨state.notes, result⟩, { i with active := state.active })

/-- What an instance gives for several operations in turn, each with the instance after it. -/
def run (i : Instance) : List Operation → Option (List (Traced Product × Instance))
  | [] => some []
  | op :: ops => do
    let (answer, next) ← i.perform op
    return (answer, next) :: (← next.run ops)

end Instance

end Component

end Componentry
