import Componentry.Calendar
import Componentry.Decimal.Shortest
import Componentry.Fault
import Componentry.Script.Node
import Componentry.Text.Quoted

/-!
# Values of a document

A document is made of scalars and containers.  Containers can be shared and can contain
themselves, so they live in a `Graph` under addresses, and a `Value` is a scalar or an address.

`Graph.unfold` follows the addresses and gives the value as a `Tree`.  Where a container turns up
inside itself the tree says so and stops.

## Termination of `unfold`

The descent carries the addresses it may still enter.  Entering a container takes its address out
of them, so the list gets shorter.
-/

namespace Componentry

/-! ## Scalars -/

/-- The sorts of embedded code. -/
inductive CodeKind where
  | raw
  | typing
  deriving DecidableEq, Repr

/-- The name of a sort of code in a document. -/
def CodeKind.name : CodeKind → String
  | .raw => "JSExpression"
  | .typing => "TSAnnotation"

/-- The label of a sort of code in messages. -/
def CodeKind.label : CodeKind → String
  | .raw => "RAW_CODE"
  | .typing => "TYPE_ANNOTATION"

/-- The sort of code with a given name. -/
def CodeKind.ofName? (name : String) : Option CodeKind :=
  if name == CodeKind.raw.name then some .raw
  else if name == CodeKind.typing.name then some .typing
  else none

/-- Embedded code: a text that goes into the module as it is. -/
structure Code where
  kind : CodeKind
  text : String
  deriving DecidableEq, Repr

/-- A value without parts. -/
inductive Scalar where
  | null
  | bool (b : Bool)
  | int (n : Int)
  | float (x : Double)
  | text (s : String)
  | code (c : Code)
  | date (d : Date)
  | time (t : TimeOfDay)
  | moment (m : Moment)
  | bytes (b : List UInt8)
  deriving DecidableEq, Repr

namespace Scalar

/-- The name of a scalar's type. -/
def typeName : Scalar → String
  | .null => "NoneType"
  | .bool _ => "bool"
  | .int _ => "int"
  | .float _ => "float"
  | .text _ => "str"
  | .code _ => "TaggedExpression"
  | .date _ => "date"
  | .time _ => "time"
  | .moment _ => "datetime"
  | .bytes _ => "bytes"

/-- The name of a scalar's type with the family it belongs to. -/
def fullTypeName : Scalar → String
  | .date _ => "datetime.date"
  | .time _ => "datetime.time"
  | .moment _ => "datetime.datetime"
  | s => s.typeName

/-- The text of a scalar inside another value. -/
def debug : Scalar → Except Fault String
  | .null => .ok "None"
  | .bool b => .ok (if b then "True" else "False")
  | .int n => integerText n
  | .float x => .ok x.text
  | .text s => .ok (Text.displayed s)
  | .code c =>
    .ok ("TaggedExpression(kind=<ExpressionKind." ++ c.kind.label ++ ": " ++
      Text.displayed c.kind.name ++ ">, code=" ++ Text.displayed c.text ++ ")")
  | .date d => .ok d.debug
  | .time t => .ok t.debug
  | .moment m => .ok m.debug
  | .bytes b => .ok (Text.displayedOctets b)

/-- The text of a scalar that stands alone. -/
def display : Scalar → Except Fault String
  | .text s => .ok s
  | .date d => .ok d.text
  | .time t => .ok t.text
  | .moment m => .ok m.text
  | s => s.debug

/-- Whether a scalar counts as nothing: null, false, zero or empty. -/
def isVoid : Scalar → Bool
  | .null => true
  | .bool b => !b
  | .int n => n == 0
  | .float x => x.isZero
  | .text s => s.isEmpty
  | .bytes b => b.isEmpty
  | _ => false

/-- The integer that a truth value or an integer stands for. -/
def toInt? : Scalar → Option Int
  | .bool b => some (if b then 1 else 0)
  | .int n => some n
  | _ => none

/-- Whether two scalars are the same key: numbers by value, moments as points in time, all else by
what it is made of. -/
def same (a b : Scalar) : Bool :=
  match a, b with
  | .float x, .float y => x == y || (x.isZero && y.isZero)
  | .float x, s | s, .float x =>
    match s.toInt?, x.toInt? with
    | some n, some m => n == m
    | _, _ => false
  | .moment x, .moment y => x.same y
  | s, t =>
    match s.toInt?, t.toInt? with
    | some n, some m => n == m
    | _, _ => s == t

end Scalar

/-! ## Graphs -/

/-- The place of a container in a graph. -/
abbrev Address := Nat

/-- A value: a scalar, or the container at an address. -/
inductive Value where
  | scalar (s : Scalar)
  | container (a : Address)
  deriving DecidableEq, Repr

namespace Value

/-- The missing value. -/
abbrev null : Value := .scalar .null

/-- A text. -/
abbrev text (s : String) : Value := .scalar (.text s)

/-- The text that a value is, if it is one. -/
def text? : Value → Option String
  | .scalar (.text s) => some s
  | _ => none

end Value

/-- A container with its parts.  The entries of a map are in the order of insertion, and no two
have the same key. -/
inductive Container where
  | list (items : List Value)
  | tuple (items : List Value)
  | set (items : List Value)
  | map (entries : List (Value × Value))
  deriving DecidableEq, Repr

/-- The sorts of containers. -/
inductive ContainerKind where
  | list
  | tuple
  | set
  | map
  deriving DecidableEq, Repr

/-- The sort of a container. -/
def Container.kind : Container → ContainerKind
  | .list _ => .list
  | .tuple _ => .tuple
  | .set _ => .set
  | .map _ => .map

/-- The name of a container's type. -/
def ContainerKind.typeName : ContainerKind → String
  | .list => "list"
  | .tuple => "tuple"
  | .set => "set"
  | .map => "dict"

/-- Whether a container has no parts. -/
def Container.isEmpty : Container → Bool
  | .list items | .tuple items | .set items => items.isEmpty
  | .map entries => entries.isEmpty

/-- The containers of a document; the address of a container is its position. -/
structure Graph where
  containers : Array Container := #[]
  deriving Repr, Inhabited

namespace Graph

/-- The container at an address. -/
def get? (g : Graph) (a : Address) : Option Container :=
  g.containers[a]?

/-- The addresses in use. -/
def addresses (g : Graph) : List Address :=
  List.range g.containers.size

/-- The graph with one more container, and the address of that one. -/
def add (g : Graph) (c : Container) : Graph × Address :=
  (⟨g.containers.push c⟩, g.containers.size)

/-- The graph with another container at an address. -/
def set (g : Graph) (a : Address) (c : Container) : Graph :=
  ⟨g.containers.setIfInBounds a c⟩

/-- The entries of a value that is a map. -/
def entries? (g : Graph) : Value → Option (List (Value × Value))
  | .container a =>
    match g.get? a with
    | some (.map entries) => some entries
    | _ => none
  | .scalar _ => none

/-- The items of a value that is a list. -/
def listItems? (g : Graph) : Value → Option (List Value)
  | .container a =>
    match g.get? a with
    | some (.list items) => some items
    | _ => none
  | .scalar _ => none

/-- The items of a value that is a list or a tuple. -/
def items? (g : Graph) : Value → Option (List Value)
  | .container a =>
    match g.get? a with
    | some (.list items) | some (.tuple items) => some items
    | _ => none
  | .scalar _ => none

/-- Whether a value counts as nothing. -/
def isVoid (g : Graph) : Value → Bool
  | .scalar s => s.isVoid
  | .container a => (g.get? a).all (·.isEmpty)

/-- The name of a value's type. -/
def typeName (g : Graph) : Value → String
  | .scalar s => s.typeName
  | .container a => ((g.get? a).map (·.kind.typeName)).getD "NoneType"

/-- The name of a value's type with the family it belongs to. -/
def fullTypeName (g : Graph) : Value → String
  | .scalar s => s.fullTypeName
  | v => g.typeName v

end Graph

/-- The value of the entry under a text, or null. -/
def entry (entries : List (Value × Value)) (key : String) : Value :=
  (entries.lookup (.text key)).getD .null

/-! ## Trees -/

/-- A value with its parts in it.  `again` stands for a container inside itself. -/
inductive Tree where
  | scalar (s : Scalar)
  | list (items : List Tree)
  | tuple (items : List Tree)
  | set (items : List Tree)
  | map (entries : List (Tree × Tree))
  | again (kind : ContainerKind)
  deriving Repr, Inhabited

/-- The value as a tree, entering only the containers at the addresses `fresh`, each at most once
on the way down. -/
def Graph.unfoldWithin (g : Graph) (fresh : List Address) : Value → Tree
  | .scalar s => .scalar s
  | .container a =>
    match g.get? a with
    | none => .scalar .null
    | some c =>
      if _h : a ∈ fresh then
        match c with
        | .list items => .list (items.map (g.unfoldWithin (fresh.erase a)))
        | .tuple items => .tuple (items.map (g.unfoldWithin (fresh.erase a)))
        | .set items => .set (items.map (g.unfoldWithin (fresh.erase a)))
        | .map entries =>
          .map (entries.map fun (k, v) =>
            (g.unfoldWithin (fresh.erase a) k, g.unfoldWithin (fresh.erase a) v))
      else .again c.kind
termination_by fresh.length
decreasing_by
  all_goals
    have := List.length_pos_of_mem _h
    rw [List.length_erase_of_mem _h]
    omega

/-- The value as a tree. -/
def Graph.unfold (g : Graph) (v : Value) : Tree :=
  g.unfoldWithin g.addresses v

namespace Tree

mutual

/-- The text of a tree inside another one. -/
def debug : Tree → Except Fault String
  | .scalar s => s.debug
  | .list items => do return "[" ++ Text.joined ", " (← debugs items) ++ "]"
  | .tuple items => do
    match ← debugs items with
    | [one] => return "(" ++ one ++ ",)"
    | several => return "(" ++ Text.joined ", " several ++ ")"
  | .set items => do
    match ← debugs items with
    | [] => return "set()"
    | several => return "\x7b" ++ Text.joined ", " several ++ "\x7d"
  | .map entries => do return "\x7b" ++ Text.joined ", " (← debugEntries entries) ++ "\x7d"
  | .again .list => .ok "[...]"
  | .again .tuple => .ok "(...)"
  | .again .set => .ok "set(...)"
  | .again .map => .ok "\x7b...\x7d"

/-- The texts of several trees inside another one. -/
def debugs : List Tree → Except Fault (List String)
  | [] => .ok []
  | t :: rest => do
    let head ← debug t
    return head :: (← debugs rest)

/-- The texts of the entries of a map. -/
def debugEntries : List (Tree × Tree) → Except Fault (List String)
  | [] => .ok []
  | (k, v) :: rest => do
    let key ← debug k
    let value ← debug v
    return (key ++ ": " ++ value) :: (← debugEntries rest)

end

/-- The text of a tree that stands alone. -/
def display : Tree → Except Fault String
  | .scalar s => s.display
  | t => t.debug

mutual

/-- Whether two trees are the same key. -/
def same : Tree → Tree → Bool
  | .scalar a, .scalar b => a.same b
  | .list a, .list b | .tuple a, .tuple b => sames a b
  | _, _ => false

/-- Whether trees are the same keys one by one. -/
def sames : List Tree → List Tree → Bool
  | [], [] => true
  | a :: as, b :: bs => same a b && sames as bs
  | _, _ => false

end

mutual

/-- The type of the first part of a tree that cannot be looked up in a set. -/
def unhashable? : Tree → Option String
  | .scalar _ => none
  | .list _ | .again .list => some ContainerKind.list.typeName
  | .map _ | .again .map => some ContainerKind.map.typeName
  | .set _ | .again .set => some ContainerKind.set.typeName
  | .tuple items => unhashablePart? items
  | .again .tuple => none

/-- The type of the first part of several trees that cannot be looked up in a set. -/
def unhashablePart? : List Tree → Option String
  | [] => none
  | t :: rest => (unhashable? t).or (unhashablePart? rest)

end

end Tree

namespace Graph

/-- The text of a value that stands alone. -/
def display (g : Graph) (v : Value) : Except Fault String :=
  (g.unfold v).display

/-- The text of a value inside another one. -/
def debug (g : Graph) (v : Value) : Except Fault String :=
  (g.unfold v).debug

/-- Whether two values are the same key. -/
def sameKey (g : Graph) : Value → Value → Bool
  | .scalar a, .scalar b => a.same b
  | a, b => (g.unfold a).same (g.unfold b)

/-- The entries of a map with one more: an entry under the same key keeps its place and its key
and gets the new value. -/
def insertEntry (g : Graph) (entries : List (Value × Value)) (key value : Value) :
    List (Value × Value) :=
  match entries with
  | [] => [(key, value)]
  | (k, v) :: rest =>
    if g.sameKey k key then (k, value) :: rest
    else (k, v) :: g.insertEntry rest key value

end Graph

end Componentry
