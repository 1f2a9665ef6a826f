import Componentry.Component.Element
import Componentry.Text.Case

/-!
# Hooks and imports

A hook entry is a map; its first key is the kind of the hook and the value under it the
configuration.  `useState` and `useEffect` become statements, every other kind an empty statement.

A document without import entries of its own imports the library and the hooks that it uses, each
once and in the order of their first use.
-/

namespace Componentry.Component

open Script (Node)

/-! ## Entries -/

/-- The kind and the configuration of a hook entry. -/
def splitHook (g : Graph) (entry : Value) : Except Fault (Option (String × Value)) :=
  match g.entries? entry with
  | some ((kind, config) :: _) => do return some (← g.display kind, config)
  | _ => .ok none

/-- The kinds of hooks among the entries, each once, in the order of first occurrence; `seen` are
the kinds met before. -/
def usedHooksFrom (g : Graph) (seen : List String) : List Value → Except Fault (List String)
  | [] => .ok seen
  | entry :: rest => do
    match ← splitHook g entry with
    | some (kind, _) => usedHooksFrom g (if seen.contains kind then seen else seen ++ [kind]) rest
    | none => usedHooksFrom g seen rest

/-- The kinds of hooks among the entries, each once, in the order of first occurrence. -/
def usedHooks (g : Graph) (hooks : List Value) : Except Fault (List String) :=
  usedHooksFrom g [] hooks

/-! ## Imports -/

/-- The module that the library is imported from. -/
def reactModule : String := "react"

/-- The import of the library, with the given hooks. -/
def reactImport (hooks : List String) : Node :=
  .importFrom
    (.defaultBinding (.name reactName) :: hooks.map fun h => .namedBinding (.name h) (.name h))
    (.text reactModule)

/-- The import that goes with the hook entries of a document. -/
def hookImport (g : Graph) (hooks : List Value) : Except Fault Node := do
  return reactImport (← usedHooks g hooks)

/-- The bindings of an import entry: its default, then its names. -/
def bindings (g : Graph) (entries : List (Value × Value)) : List Node :=
  let default :=
    match entry entries "default" with
    | .scalar (.text s) => if s.isEmpty then [] else [Node.defaultBinding (.name s)]
    | _ => []
  let named :=
    ((g.listItems? (entry entries "named")).getD []).filterMap fun
      | .scalar (.text s) => if s.isEmpty then none else some (Node.namedBinding (.name s) (.name s))
      | _ => none
  default ++ named

/-- The import of one entry, if it names its source. -/
def importOf? (g : Graph) (spec : Value) : Option Node :=
  match g.entries? spec with
  | some entries =>
    match entry entries "from" with
    | .scalar (.text source) => some (.importFrom (bindings g entries) (.text source))
    | _ => none
  | none => none

/-- The imports of all entries that name their source, in order. -/
def imports (g : Graph) : List Value → Traced (List Node)
  | [] => return []
  | spec :: rest =>
    match importOf? g spec with
    | some node => do return node :: (← imports g rest)
    | none => do
      Traced.note (.skippedImport ((g.debug spec).toOption.getD ""))
      imports g rest

/-! ## Statements -/

/-- The text that the body of every effect logs. -/
def effectMessage : String := "Effect running"

/-- A state variable with its setter and its initial value, which becomes a node by `data`. -/
def stateStatement (data : Value → Traced Node) (config : List (Value × Value)) : Traced Node :=
  match entry config "variable" with
  | .scalar (.text name) =>
    if name.isEmpty then return .empty
    else do
      let initial ← data (entry config "initialValue")
      return .declaration "const"
        [.declarator (.arrayPattern [.name name, .name ("set" ++ Text.capitalized name)])
          (some (.call (.name "useState") [initial]))]
  | _ => return .empty

/-- An effect with its dependencies. -/
def effectStatement (g : Graph) (config : List (Value × Value)) : Except Fault Node := do
  let dependencies := (g.listItems? (entry config "dependencies")).getD []
  let names ← dependencies.mapM fun d => do return Node.name (← g.display d)
  let log := Node.call (.member (.name "console") (.name "log")) [.text effectMessage]
  return .expression (.call (.name "useEffect")
    [.arrow [] (.block [.expression log]), .array names])

/-- The statement of a hook entry; initial values become nodes by `data`. -/
def hookStatementWith (g : Graph) (data : Value → Traced Node) (hook : Value) : Traced Node := do
  match ← splitHook g hook with
  | none => return .empty
  | some (kind, config) =>
    let config := (g.entries? config).getD []
    if kind == "useState" then stateStatement data config
    else if kind == "useEffect" then effectStatement g config
    else
      Traced.note (.unsupportedHook kind)
      return .empty

/-- The statement of a hook entry. -/
def hookStatement (g : Graph) (hook : Value) : Traced Node :=
  hookStatementWith g (convert g) hook

end Componentry.Component
