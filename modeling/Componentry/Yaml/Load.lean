import Componentry.Document.Schema
import Componentry.Yaml.Grammar
import Componentry.Yaml.Scalar

/-!
# Documents from texts

A node becomes a value by the form that its tag asks for.  A scalar is read at once.  A collection
becomes an empty container that is filled later, in the order in which the containers were made,
so a collection can contain itself.

A mapping may have keys that merge other mappings into it.  `flatten` replaces such a pair by the
pairs of the other mappings, which come in front and so give way to the mapping's own.

`Document.parse` goes from a text to a document that has what every document needs.
-/

namespace Componentry.Yaml

/-- The state of turning nodes into values. -/
structure Loading where
  nodes : Array Node
  /-- The values of the nodes that have one already. -/
  values : List (NodeId × Value) := []
  graph : Graph := {}
  /-- The collections whose containers are to be filled, with their addresses. -/
  waiting : List (NodeId × Form × Address) := []

/-- A step of turning nodes into values. -/
abbrev Loader := StateT Loading (Except Trouble)

namespace Loader

/-- A problem at a node. -/
def problem {α : Type} (what : Problem) (node : Node) : Loader α :=
  throw (.problem none what node.mark)

/-- A problem at a node within a collection. -/
def problemWithin {α : Type} (activity : Activity) (outer : Node) (what : Problem) (node : Node) :
    Loader α :=
  throw (.within activity outer.mark what node.mark)

/-- A node by its number. -/
def nodeAt (id : NodeId) : Loader Node := do
  return (← get).nodes.getD id ⟨textTag, {}, .scalar ""⟩

/-- Replaces a node. -/
def setNode (id : NodeId) (node : Node) : Loader Unit :=
  modify fun s => { s with nodes := s.nodes.setIfInBounds id node }

/-- A result that may be a fault. -/
def ofFault {α : Type} (x : Except Fault α) : Loader α :=
  match x with
  | .ok a => return a
  | .error f => throw (.fault f)

/-! ## Scalars -/

/-- The text of a scalar.  A mapping with a key that stands for the mapping as a whole has the text
of the value there, which may be such a mapping again.  No more than `limit` nodes are looked at; with
a limit above the number of all nodes, only a mapping that comes back to itself is `endless`. -/
def scalarText : (limit : Nat) → Node → Loader String
  | 0, _ => throw (.fault .endless)
  | limit + 1, node => do
    match node.content with
    | .scalar text => return text
    | .mapping pairs =>
      match ← pairs.findM? fun (key, _) => return (← nodeAt key).tag == valueTag with
      | some (_, value) => scalarText limit (← nodeAt value)
      | none => problem (.expectedNode "a scalar node" node.content.word) node
    | .sequence _ => problem (.expectedNode "a scalar node" node.content.word) node

/-- The date or moment of a node.  Only a scalar has a text that can be taken apart. -/
def timestamp (node : Node) (text : String) : Loader Scalar :=
  match node.content with
  | .scalar _ => ofFault (timestampValue text)
  | _ => throw (.fault (.textExpected ContainerKind.list.typeName))

/-- The scalar that a node is in the given form; `none` for the forms of collections. -/
def scalar? (id : NodeId) (form : Form) (node : Node) : Loader (Option Scalar) := do
  let text : Loader String := do scalarText ((← get).nodes.size + 1) node
  match form with
  | .null => do
    let _ ← text
    return some .null
  | .bool => return some (.bool (← ofFault (truthValue (← text))))
  | .int => return some (.int (← ofFault (integerValue (← text))))
  | .float => return some (.float (← ofFault (floatValue (id + 1) (← text))))
  | .text => return some (.text (← text))
  | .code typing => return some (.code ⟨if typing then .typing else .raw, ← text⟩)
  | .timestamp => return some (← timestamp node (← text))
  | .octets =>
    match octetsValue (← text) with
    | .ok octets => return some (.bytes octets)
    | .error what => problem what node
  | _ => return none

/-! ## Collections -/

/-- The empty container of a form. -/
def emptyContainer : Form → Container
  | .map => .map []
  | .set => .set []
  | _ => .list []

/-- The value of a node.  The container of a collection is made empty, and waits to be filled. -/
def value (id : NodeId) : Loader Value := do
  match (← get).values.lookup id with
  | some v => return v
  | none =>
    let node ← nodeAt id
    match Form.ofTag? node.tag with
    | none => problem (.unknownTag node.tag) node
    | some form =>
      match ← scalar? id form node with
      | some s =>
        modify fun st => { st with values := (id, .scalar s) :: st.values }
        return .scalar s
      | none =>
        let s ← get
        let (graph, address) := s.graph.add (emptyContainer form)
        set { s with
          graph
          values := (id, .container address) :: s.values
          waiting := s.waiting ++ [(id, form, address)] }
        return .container address

/-- The pairs of a mapping that is to be merged, after its own merging. -/
def mergedPairs (id : NodeId) : Loader (List (NodeId × NodeId)) := do
  match (← nodeAt id).content with
  | .mapping pairs => return pairs
  | _ => return []

/-- Whether the key of a pair merges other mappings into its mapping. -/
def isMerge (nodes : Array Node) (pair : NodeId × NodeId) : Bool :=
  nodes[pair.1]?.any (·.tag == mergeTag)

/-- Makes a text of a key that stands for a whole mapping. -/
def settleKey (key : NodeId) : Loader Unit := do
  let node ← nodeAt key
  if node.tag == valueTag then setNode key { node with tag := textTag }

/-- Merges other mappings into a mapping.  `merged` are the pairs that were collected so far.  Each
step takes one merging pair away, so `limit` is enough if there are fewer such pairs. -/
def flattenWith (id : NodeId) : (limit : Nat) → (merged : List (NodeId × NodeId)) → Loader Unit
  | 0, _ => return
  | limit + 1, merged => do
    let node ← nodeAt id
    let pairs ← mergedPairs id
    let index := pairs.findIdx (isMerge (← get).nodes)
    match pairs[index]? with
    | none =>
      pairs.forM fun (key, _) => settleKey key
      if !merged.isEmpty then setNode id { node with content := .mapping (merged ++ pairs) }
    | some (_, other) =>
      setNode id { node with content := .mapping (pairs.eraseIdx index) }
      let otherNode ← nodeAt other
      match otherNode.content with
      | .mapping _ =>
        flattenWith other limit []
        flattenWith id limit (merged ++ (← mergedPairs other))
      | .sequence items =>
        let parts ← items.mapM fun item => do
          let itemNode ← nodeAt item
          match itemNode.content with
          | .mapping _ =>
            flattenWith item limit []
            mergedPairs item
          | content =>
            problemWithin .buildMapping node
              (.expectedNode "a mapping for merging" content.word) itemNode
        flattenWith id limit (merged ++ parts.reverse.flatten)
      | content =>
        problemWithin .buildMapping node
          (.expectedNode "a mapping or list of mappings for merging" content.word) otherNode

/-- The number of pairs in all mappings that merge others into theirs. -/
def mergeCount (nodes : Array Node) : Nat :=
  nodes.foldl (fun n node =>
    match node.content with
    | .mapping pairs => n + pairs.countP (isMerge nodes)
    | _ => n) 0

/-- Merges other mappings into a mapping. -/
def flatten (id : NodeId) : Loader Unit := do
  flattenWith id (mergeCount (← get).nodes + 1) []

/-- The entries of a mapping. -/
def entries (id : NodeId) : Loader (List (Value × Value)) := do
  let node ← nodeAt id
  match node.content with
  | .mapping _ =>
    flatten id
    (← mergedPairs id).foldlM (fun entries (key, other) => do
      let k ← value key
      match k with
      | .container _ => problemWithin .buildMapping node .unhashableKey (← nodeAt key)
      | .scalar _ =>
        let v ← value other
        return (← get).graph.insertEntry entries k v) []
  | content => problem (.expectedNode "a mapping node" content.word) node

/-- The activity of building a list of pairs. -/
def pairsActivity (ordered : Bool) : Activity :=
  if ordered then .buildOrderedMap else .buildPairs

/-- A pair in a list of pairs. -/
def pair (ordered : Bool) (outer : Node) (id : NodeId) : Loader Value := do
  let node ← nodeAt id
  match node.content with
  | .mapping [(key, other)] =>
    let k ← value key
    let v ← value other
    let s ← get
    let (graph, address) := s.graph.add (.tuple [k, v])
    set { s with graph }
    return .container address
  | .mapping pairs =>
    problemWithin (pairsActivity ordered) outer (.singleItem pairs.length) node
  | content =>
    problemWithin (pairsActivity ordered) outer
      (.expectedNode "a mapping of length 1" content.word) node

/-- What the container of a collection is filled with. -/
def contents (id : NodeId) (form : Form) : Loader Container := do
  let node ← nodeAt id
  match form with
  | .map => return .map (← entries id)
  | .set => return .set ((← entries id).map (·.1))
  | .pairs ordered =>
    match node.content with
    | .sequence items => return .list (← items.mapM (pair ordered node))
    | content =>
      problemWithin (pairsActivity ordered) node (.expectedNode "a sequence" content.word) node
  | _ =>
    match node.content with
    | .sequence items => return .list (← items.mapM value)
    | content => problem (.expectedNode "a sequence node" content.word) node

/-- Fills the waiting containers, at most `limit` of them. -/
def fillAll : (limit : Nat) → Loader Unit
  | 0 => return
  | limit + 1 => do
    match (← get).waiting with
    | [] => return
    | (id, form, address) :: rest =>
      modify fun s => { s with waiting := rest }
      let container ← contents id form
      modify fun s => { s with graph := s.graph.set address container }
      fillAll limit

/-- The value of a node, with all containers filled. -/
def root (id : NodeId) : Loader Value := do
  let v ← value id
  fillAll ((← get).nodes.size + 1)
  return v

end Loader

/-- The value that a text spells. -/
def valueOfText (text : List Char) : Except Trouble Document := do
  let nodes ← NodeGraph.ofTokens (TokenStream.ofText text)
  match nodes.root with
  | none => return ⟨{}, .null⟩
  | some id =>
    let (root, s) ← (Loader.root id).run { nodes := nodes.nodes }
    return ⟨s.graph, root⟩

end Componentry.Yaml

namespace Componentry

/-- The failure that trouble with the text of a document comes to. -/
def Yaml.Trouble.failure (source : List Char) (path : Option String) : Trouble → Failure
  | .fault f => .fault f
  | trouble =>
    .document
      { kind := .schema
        message := "YSX Parse Error: " ++ trouble.message source
        path
        line := trouble.mark?.map (·.line + 1)
        column := trouble.mark?.map (·.column + 1) }

/-- The document that a text spells. -/
def Document.parse (text : String) (path : Option String) : Except Failure Document := do
  let source := text.toList
  let document ← (Yaml.valueOfText source).mapError (·.failure source path)
  match document.graph.schemaError? document.root path with
  | some e => throw (.document e)
  | none => return document

end Componentry
