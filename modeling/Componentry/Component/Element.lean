import Componentry.Component.Interpolation
import Componentry.Component.View
import Componentry.Note

/-!
# Elements and data

A value becomes an expression in one of two ways.

* `convert` takes it as data: lists become lists, maps become objects.
* `element` takes it as part of a page: a map is an element, its first key the tag and the value
  under it the configuration, which is a map of attributes and children or the content itself.

In both, texts are interpolated and embedded code is parsed as a snippet.

## Values inside themselves

The descent carries the addresses of the containers it may still enter.  Entering a container
takes its address away for everything below it; a container that may not be entered becomes
`null`.  Lists, tuples and maps are entered when they are met as an element, as data or as the
configuration of an element.  A list of children and a map of attributes are read without being
entered.

## Termination

Every way from one `element` to another one below it enters a container, so the list of addresses
gets shorter; `children` and `elementOf` on the way are ordered by rank.
-/

namespace Componentry.Component

open Script (Node)

/-- The library object that elements are created with. -/
def reactName : String := "React"

/-- A tag that starts with a capital letter is a component; all others are texts. -/
def tagReference (tag : String) : Node :=
  match tag.toList with
  | c :: _ => if 'A' ≤ c && c ≤ 'Z' then .name tag else .text tag
  | [] => .text tag

/-- The key of an object property: a name if its text is an identifier name. -/
def propertyKey (g : Graph) (key : Value) : Except Fault Node := do
  let text ← g.display key
  return if Text.isIdentifierName text then .name text else .text text

/-- The call that creates an element. -/
def createElement (tag attributes : Node) (children : List Node) : Node :=
  .call (.member (.name reactName) (.name "createElement")) (tag :: attributes :: children)

/-- What a container inside itself becomes. -/
def cyclic : Traced Node := do
  Traced.note .cyclic
  return .null

/-- The list of addresses gets shorter when one of them is entered. -/
theorem length_erase_lt {fresh : List Address} {a : Address} (h : a ∈ fresh) :
    (fresh.erase a).length < fresh.length := by
  have := List.length_pos_of_mem h
  rw [List.length_erase_of_mem h]
  omega

/-! ## Data -/

/-- A value as data, entering only containers at the addresses `fresh`. -/
def convertWithin (g : Graph) (fresh : List Address) (v : Value) : Traced Node := do
  match ← g.view v with
  | .null => return .null
  | .bool b => return .bool b
  | .number n => return .number n
  | .text s => interpolate s
  | .code c => Snippet.parse c.text
  | .sequence a items =>
    if _h : a ∈ fresh then
      let elements ← items.mapM fun item => convertWithin g (fresh.erase a) item
      return .array elements
    else cyclic
  | .mapping a entries =>
    if _h : a ∈ fresh then
      let properties ← entries.mapM fun (k, w) => do
        let key ← propertyKey g k
        let value ← convertWithin g (fresh.erase a) w
        return Node.property key value
      return .object properties
    else cyclic
  | .other => return .text (← g.display v)
termination_by fresh.length
decreasing_by all_goals exact length_erase_lt _h

/-- Raw code in an attribute.  What is no snippet is kept as a text. -/
def rawAttribute (code : String) : Traced Node :=
  match Snippet.parse (Text.trimmed code) with
  | .ok node => pure node
  | .error fault => do
    Traced.note (.unparsable fault.message)
    return .text code

/-- One attribute: its value, which becomes a node by `data` unless it is raw code, then its key. -/
def attributeProperty (g : Graph) (data : Value → Traced Node) (key value : Value) :
    Traced Node := do
  let node ←
    match ← g.code? value with
    | some ⟨.raw, code⟩ => rawAttribute code
    | _ => data value
  return .property (← propertyKey g key) node

/-- Several attributes, whose values become nodes by `data`. -/
def attributesWith (g : Graph) (data : Value → Traced Node) (entries : List (Value × Value)) :
    Traced Node :=
  match entries with
  | [] => return .null
  | _ => do
    let properties ← entries.mapM fun (k, v) => attributeProperty g data k v
    return .object properties

/-- The attributes of an element. -/
def attributesWithin (g : Graph) (fresh : List Address) (entries : List (Value × Value)) :
    Traced Node :=
  attributesWith g (convertWithin g fresh) entries

/-! ## Elements -/

/-- Whether an entry holds the children of an element. -/
def isChildrenEntry (entry : Value × Value) : Bool :=
  entry.1 == .text "children"

mutual

/-- A value as part of a page, entering only containers at the addresses `fresh`. -/
def elementWithin (g : Graph) (fresh : List Address) (v : Value) : Traced Node := do
  match ← g.view v with
  | .null => return .null
  | .bool b => return .bool b
  | .number n => return .number n
  | .text s => interpolate s
  | .code c => Snippet.parse c.text
  | .sequence a items =>
    if _h : a ∈ fresh then
      let elements ← items.mapM fun item => elementWithin g (fresh.erase a) item
      return .array elements
    else cyclic
  | .mapping _ [] => return .null
  | .mapping a ((tag, config) :: _) =>
    if _h : a ∈ fresh then
      let tag ← g.display tag
      elementOf g (fresh.erase a) tag config
    else cyclic
  | .other => return .text (← g.display v)
termination_by 3 * fresh.length
decreasing_by
  all_goals
    have := length_erase_lt _h
    omega

/-- The element with a tag and a configuration. -/
def elementOf (g : Graph) (fresh : List Address) (tag : String) (config : Value) :
    Traced Node := do
  match ← g.view config with
  | .mapping a entries =>
    if _h : a ∈ fresh then
      let children ←
        match entries.find? isChildrenEntry with
        | some (_, content) => childrenWithin g (fresh.erase a) content
        | none => pure []
      let attributes ← attributesWithin g (fresh.erase a) (entries.filter (!isChildrenEntry ·))
      return createElement (tagReference tag) attributes children
    else
      Traced.note .cyclic
      return createElement (tagReference tag) .null [.null]
  | .null => return createElement (tagReference tag) .null [.null]
  | .text s => return createElement (tagReference tag) .null [← interpolate s]
  | _ => return createElement (tagReference tag) .null (← childrenWithin g fresh config)
termination_by 3 * fresh.length + 2
decreasing_by
  · have := length_erase_lt _h
    omega
  · omega

/-- The children that a value stands for: the items of a list or a tuple, or the value itself. -/
def childrenWithin (g : Graph) (fresh : List Address) (content : Value) : Traced (List Node) :=
  match g.items? content with
  | some items => items.mapM fun item => elementWithin g fresh item
  | none => do return [← elementWithin g fresh content]
termination_by 3 * fresh.length + 1
decreasing_by
  all_goals omega

end

/-! ## From the top -/

/-- A value as data. -/
def convert (g : Graph) (v : Value) : Traced Node :=
  convertWithin g g.addresses v

/-- A value as part of a page. -/
def element (g : Graph) (v : Value) : Traced Node :=
  elementWithin g g.addresses v

/-- The children that a value stands for. -/
def children (g : Graph) (v : Value) : Traced (List Node) :=
  childrenWithin g g.addresses v

/-- The attributes that a value stands for, whose values become nodes by `data`; it has to be a map,
unless it counts as nothing. -/
def attributesFrom (g : Graph) (data : Value → Traced Node) (v : Value) : Traced Node :=
  if g.isVoid v then return .null
  else
    match g.entries? v with
    | some entries => attributesWith g data entries
    | none => Traced.lift (.error (.noMember (g.fullTypeName v) "items"))

/-- The attributes that a value stands for. -/
def attributes (g : Graph) (v : Value) : Traced Node :=
  attributesFrom g (convert g) v

end Componentry.Component
