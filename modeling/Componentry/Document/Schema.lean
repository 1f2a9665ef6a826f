import Componentry.Document.Value
import Componentry.Failure

/-!
# What every document needs

A document is a map with something under `render`.
-/

namespace Componentry

/-- A document: a graph and the value to start from. -/
structure Document where
  graph : Graph
  root : Value

/-- What is wrong with a document that is no map, or renders nothing. -/
def Graph.schemaError? (g : Graph) (root : Value) (path : Option String) : Option DocumentError :=
  match g.entries? root with
  | none =>
    some { kind := .schema, message := "YSX Parse Error: Invalid YSX: Root must be an object", path,
           hint := some "A YSX document is a mapping with at least a 'render' key" }
  | some entries =>
    if entry entries "render" == .null then
      some { kind := .schema,
             message := "YSX Parse Error: Invalid YSX: Missing required \"render\" key", path,
             hint := some "Add a 'render' mapping describing the root element" }
    else none

/-- The name of a document in the log. -/
def Document.logName (d : Document) : String :=
  let name := entry ((d.graph.entries? d.root).getD []) "name"
  if d.graph.isVoid name then "<unnamed>" else (d.graph.display name).toOption.getD ""

end Componentry
