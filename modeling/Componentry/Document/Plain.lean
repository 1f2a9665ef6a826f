import Componentry.Document.Value
import Componentry.Text.Entries

/-!
# Plain documents

The plain form of a document has only the shapes of data formats: embedded code becomes a map of
its type and its text, tuples become lists, and the keys of maps become texts.  Two keys with the
same text become one; it keeps the place of the first and gets the value of the last.
-/

namespace Componentry

/-- A map whose keys are texts; later entries win. -/
def Tree.ofTexts (entries : List (String × Tree)) : Tree :=
  .map ((Entries.ofList entries).map fun (k, v) => (.scalar (.text k), v))

namespace Tree

mutual

/-- The plain form of a tree. -/
def plain : Tree → Except Fault Tree
  | .scalar (.code c) =>
    .ok (.ofTexts [("type", .scalar (.text c.kind.name)), ("code", .scalar (.text c.text))])
  | .map entries => do return .ofTexts (← plainEntries entries)
  | .list items | .tuple items => do return .list (← plains items)
  | t => .ok t

/-- The plain forms of several trees. -/
def plains : List Tree → Except Fault (List Tree)
  | [] => .ok []
  | t :: rest => do
    let head ← plain t
    return head :: (← plains rest)

/-- The entries of a map with texts for keys and plain values. -/
def plainEntries : List (Tree × Tree) → Except Fault (List (String × Tree))
  | [] => .ok []
  | (k, v) :: rest => do
    let key ← k.display
    let value ← plain v
    return (key, value) :: (← plainEntries rest)

end

end Tree

/-- The plain form of a value. -/
def Graph.plain (g : Graph) (v : Value) : Except Fault Tree :=
  (g.unfold v).plain

end Componentry
