import Componentry.Document.Value

/-!
# Maps with names

The entries of a map under texts.
-/

namespace Componentry.Tree

/-- The value under a name. -/
def lookup (entries : List (Tree × Tree)) (name : String) : Option Tree :=
  match entries with
  | [] => none
  | (.scalar (.text key), value) :: rest => if key == name then some value else lookup rest name
  | _ :: rest => lookup rest name

/-- The entries with another value under a name.  A new name comes last. -/
def assign (entries : List (Tree × Tree)) (name : String) (value : Tree) : List (Tree × Tree) :=
  match entries with
  | [] => [(.scalar (.text name), value)]
  | (key, old) :: rest =>
    match key with
    | .scalar (.text text) =>
      if text == name then (key, value) :: rest else (key, old) :: assign rest name value
    | _ => (key, old) :: assign rest name value

/-- Whether a tree counts as nothing. -/
def isVoid : Tree → Bool
  | .scalar s => s.isVoid
  | .list items | .tuple items | .set items => items.isEmpty
  | .map entries => entries.isEmpty
  | .again _ => false

/-- The name of a tree's type with the family it belongs to. -/
def fullTypeName : Tree → String
  | .scalar s => s.fullTypeName
  | .list _ => ContainerKind.list.typeName
  | .tuple _ => ContainerKind.tuple.typeName
  | .set _ => ContainerKind.set.typeName
  | .map _ => ContainerKind.map.typeName
  | .again kind => kind.typeName

end Componentry.Tree
