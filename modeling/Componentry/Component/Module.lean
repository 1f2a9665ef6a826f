import Componentry.Component.Hook
import Componentry.Path
import Componentry.Script.Printer
import Componentry.Yaml.Load

/-!
# Modules

A document becomes a module of three parts: its imports, one function component, and the export
of that component.  The body of the function holds the statements of the hooks and returns the
rendered element.
-/

namespace Componentry.Component

open Script (Node)

/-- The name of a component whose document gives none. -/
def defaultName : String := "Component"

/-- The name of a component: the trimmed text under `name`, unless that is blank. -/
def componentName (entries : List (Value × Value)) : String :=
  match entry entries "name" with
  | .scalar (.text s) =>
    let name := Text.trimmed s
    if name.isEmpty then defaultName else name
  | _ => defaultName

/-- The hook entries of a document. -/
def hookEntries (g : Graph) (entries : List (Value × Value)) : List Value :=
  (g.listItems? (entry entries "hooks")).getD []

/-- The import entries of a document. -/
def importEntries (g : Graph) (entries : List (Value × Value)) : List Value :=
  (g.listItems? (entry entries "imports")).getD []

/-- The imports of a document: its own, if it has any, or those that its hooks need. -/
def moduleImports (g : Graph) (entries : List (Value × Value)) : Traced (List Node) :=
  match importEntries g entries with
  | [] => do return [← hookImport g (hookEntries g entries)]
  | specs => imports g specs

/-- The module tree of a document, whose rendered element becomes a node by `page` and whose initial
values become nodes by `data`.  A value that is no map counts as an empty one. -/
def programWith (g : Graph) (data page : Value → Traced Node) (document : Value) : Traced Node := do
  let entries := (g.entries? document).getD []
  let name := componentName entries
  let hooks := hookEntries g entries
  Traced.note (.building (!hooks.isEmpty) name)
  let statements ← hooks.mapM fun hook => hookStatementWith g data hook
  let rendered ← page (entry entries "render")
  let imported ← moduleImports g entries
  return .program (imported ++
    [.function (.name name) [.name "props"] (.block (statements ++ [.result (some rendered)])),
     .exportDefault (.name name)])

/-- The module tree of a document. -/
def program (g : Graph) (document : Value) : Traced Node :=
  programWith g (convert g) (element g) document

/-- The source text of a document's module. -/
def compile (g : Graph) (document : Value) (annotated : Bool) : Traced String := do
  let tree ← program g document
  Script.moduleText annotated tree

/-- The module of the document in a text.  The path of the text, if there is one, is named in errors;
and its suffix decides about type annotations if nothing else does. -/
def compileText (text : String) (path : Option String) (annotated : Option Bool) :
    Except Failure String := do
  let document ← Document.parse text path
  let inferred := path.any fun p => (Path.ofText p).isAnnotated
  (compile document.graph document.root (annotated.getD inferred)).result.mapError .fault

end Componentry.Component
