import Componentry.Yaml.Mark
import Componentry.Yaml.Tag

/-!
# Nodes

A document is a graph of nodes.  A node has a tag, a place, and a content that refers to other
nodes by their numbers, so that a node can be shared and can contain itself.
-/

namespace Componentry.Yaml

/-- The number of a node. -/
abbrev NodeId := Nat

/-- What a node consists of. -/
inductive Content where
  | scalar (text : String)
  | sequence (items : List NodeId)
  | mapping (pairs : List (NodeId × NodeId))
  deriving DecidableEq, Repr

/-- The word for a sort of content. -/
def Content.word : Content → String
  | .scalar _ => "scalar"
  | .sequence _ => "sequence"
  | .mapping _ => "mapping"

/-- A node. -/
structure Node where
  tag : String
  mark : Mark
  content : Content
  deriving DecidableEq, Repr

/-- The nodes of a document, and the one to start from; a text without a document has none. -/
structure NodeGraph where
  nodes : Array Node
  root : Option NodeId
  deriving Repr

end Componentry.Yaml
