import Componentry.Document.Value

/-!
# What a value is to the compiler

The compiler tells eight sorts of values apart.  Embedded code comes in two spellings: as a scalar,
and as a map with the two entries `type` and `code` and no others, where the code is a text and the
type names a sort of code.
-/

namespace Componentry

/-- A value as the compiler sees it. -/
inductive View where
  | null
  | bool (b : Bool)
  | number (n : Script.Number)
  | text (s : String)
  | code (c : Code)
  | sequence (a : Address) (items : List Value)
  | mapping (a : Address) (entries : List (Value × Value))
  /-- A date, a time, octets or a set. -/
  | other
  deriving DecidableEq, Repr

/-- The word for a sort of value. -/
def View.word : View → String
  | .null => "null"
  | .bool _ => "boolean"
  | .number _ => "number"
  | .text _ => "string"
  | .code _ => "tagged"
  | .sequence _ _ => "sequence"
  | .mapping _ _ => "mapping"
  | .other => "other"

/-- The sort of code that a value names.  A list or a map cannot be looked up among the names; a
set can, and is none of them. -/
def Graph.codeKind? (g : Graph) (v : Value) : Except Fault (Option CodeKind) :=
  match v with
  | .scalar (.text name) => .ok (CodeKind.ofName? name)
  | _ =>
    match g.unfold v with
    | .set _ => .ok none
    | t =>
      match t.unhashable? with
      | some type => .error (.unhashable type)
      | none => .ok none

/-- The embedded code that the entries of a map spell. -/
def Graph.codeOfEntries? (g : Graph) (entries : List (Value × Value)) :
    Except Fault (Option Code) :=
  match entries with
  | [(k₁, v₁), (k₂, v₂)] =>
    let parts :=
      if k₁ == .text "type" && k₂ == .text "code" then some (v₁, v₂)
      else if k₁ == .text "code" && k₂ == .text "type" then some (v₂, v₁)
      else none
    match parts with
    | some (kind, .scalar (.text code)) => do
      return (← g.codeKind? kind).map (⟨·, code⟩)
    | _ => .ok none
  | _ => .ok none

/-- The embedded code that a value is, in either spelling. -/
def Graph.code? (g : Graph) (v : Value) : Except Fault (Option Code) :=
  match v with
  | .scalar (.code c) => .ok (some c)
  | .scalar _ => .ok none
  | .container a =>
    match g.get? a with
    | some (.map entries) => g.codeOfEntries? entries
    | _ => .ok none

/-- The value as the compiler sees it. -/
def Graph.view (g : Graph) (v : Value) : Except Fault View :=
  match v with
  | .scalar .null => .ok .null
  | .scalar (.bool b) => .ok (.bool b)
  | .scalar (.int n) => .ok (.number (.int n))
  | .scalar (.float x) => .ok (.number (.float x))
  | .scalar (.text s) => .ok (.text s)
  | .scalar (.code c) => .ok (.code c)
  | .scalar _ => .ok .other
  | .container a =>
    match g.get? a with
    | some (.list items) | some (.tuple items) => .ok (.sequence a items)
    | some (.map entries) => do
      match ← g.codeOfEntries? entries with
      | some c => return .code c
      | none => return .mapping a entries
    | some (.set _) => .ok .other
    | none => .ok .null

end Componentry
