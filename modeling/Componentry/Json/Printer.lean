import Componentry.Document.Value

/-!
# Writing JSON

A tree as a JSON text over several lines, two spaces for each level.  Tuples are written as arrays.
Only texts, numbers, truth values and null can be written, and containers of them.
-/

namespace Componentry.Json

/-- The text of a scalar. -/
def scalarText : Scalar → Except Fault String
  | .null => .ok "null"
  | .bool b => .ok (if b then "true" else "false")
  | .int n => integerText n
  | .float x =>
    .ok (if x.isNaN then "NaN"
      else if x.isInfinite then (if x.isNegative then "-Infinity" else "Infinity")
      else x.text)
  | .text s => .ok (Text.quoted s)
  | s => .error (.notSerializable s.typeName)

/-- A line break and the spaces for a level. -/
def newLine (level : Nat) : String :=
  "\n" ++ String.ofList (List.replicate (2 * level) ' ')

/-- Parts between brackets on lines of their own; without parts the brackets stand together. -/
def bracketed (opening closing : String) (level : Nat) (parts : List String) : String :=
  if parts.isEmpty then opening ++ closing
  else
    opening ++ newLine (level + 1) ++ Text.joined ("," ++ newLine (level + 1)) parts ++
      newLine level ++ closing

mutual

/-- The text of a tree at a level. -/
def textAt (level : Nat) : Tree → Except Fault String
  | .scalar s => scalarText s
  | .list items | .tuple items => do
    return bracketed "[" "]" level (← textsAt (level + 1) items)
  | .map entries => do
    return bracketed "\x7b" "\x7d" level (← entriesAt (level + 1) entries)
  | .set _ => .error (.notSerializable ContainerKind.set.typeName)
  | .again _ => .ok "null"

/-- The texts of several trees at a level. -/
def textsAt (level : Nat) : List Tree → Except Fault (List String)
  | [] => .ok []
  | t :: rest => do
    let head ← textAt level t
    return head :: (← textsAt level rest)

/-- The texts of the entries of a map at a level. -/
def entriesAt (level : Nat) : List (Tree × Tree) → Except Fault (List String)
  | [] => .ok []
  | (key, value) :: rest => do
    let key ← textAt level key
    let value ← textAt level value
    return (key ++ ": " ++ value) :: (← entriesAt level rest)

end

/-- A tree as a JSON text. -/
def pretty (t : Tree) : Except Fault String :=
  textAt 0 t

end Componentry.Json
