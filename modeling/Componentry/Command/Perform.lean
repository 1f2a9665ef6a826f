import Componentry.Command.Request
import Componentry.Command.Session
import Componentry.Component.Module
import Componentry.Document.Plain
import Componentry.Json.Printer

/-!
# Performing tasks

A task is performed in a context: the directory that the program runs in, and the workspace.

* To compile one document, nothing is written before the module is complete.
* To compile all documents in a directory, those that are no documents are left out and reported
  at the end.  A module lies under the output directory as its document lies under the source
  directory.
-/

namespace Componentry.Command

/-- What is known when a task is performed. -/
structure Context where
  /-- The directory that the program runs in. -/
  here : Path
  /-- The workspace as it was asked for. -/
  root : Path
  workspace : Workspace

/-- Whether a fault comes from outside of the program: from a file that cannot be used, or from a
value that makes no sense. -/
def isOutside : Fault → Bool
  | .tooManyDigits _ | .integerTooLong | .notInteger _ _ | .notNumber _ | .outOfRange _
  | .offsetOutOfRange _ | .noCodePoint | .emptyName _ | .notInside _ _ | .nullInPath
  | .undecodable _ | .endless | .refused _ _ | .badJson _ | .badToml _ => true
  | .badPattern problem => problem.kind == "ValueError" || problem.kind == "NotImplementedError"
  | .foreign kind _ => ["ValueError", "OSError", "RuntimeError"].contains kind
  | _ => false

/-- A text that is not empty, as a path without dots. -/
def resolveGiven (here : Path) (text : Option String) : Except Fault (Option Path) := do
  match present text with
  | text :: _ => return some (← Path.resolve here (.ofText text))
  | [] => return none

/-- The context of a request. -/
def Context.make (env : Environment) (here : Path) (request : Request) : Action Context := do
  let root := (← Action.ofExcept (resolveGiven here request.workspace)).getD here
  let given ← Action.ofExcept (resolveGiven here request.settings)
  match Workspace.load (← Action.files) env here root given with
  | .ok workspace => do
    match workspace.source with
    | some path => Action.note (.usingSettings path.text)
    | none => pure ()
    return { here, root, workspace }
  | .error f =>
    if isOutside f then
      throw <| .command
        { kind := .config
          message := "Could not read workspace configuration in " ++ root.text
          hint := some "Check ysx.toml (or .ysxrc) for syntax errors"
          context := [("original_exception", f.message), ("original_type", f.kind)] }
    else throw (.fault f)

/-- The failure of a task that is performed without a context. -/
def noContext : Failure :=
  .command
    { kind := .config
      message := "CLI context was not initialized before command execution"
      code := "CLI_CONTEXT_NOT_INITIALIZED"
      hint := some "This is an internal error - please report it" }

/-! ## Paths in arguments -/

/-- The failure if a path leads nowhere. -/
def notThere (p : Path) : Failure :=
  .command
    { kind := .fileNotFound
      message := "Path does not exist: " ++ p.text
      hint := some "Ensure the file or directory exists before running this command" }

/-- The failure if something else than a text stands for a path. -/
def notPath (typeName : String) : Failure :=
  .command
    { kind := .validation
      message := "Expected path-like value, got " ++ typeName
      hint := some "Provide a string or Path object" }

/-- The path that a value gives.  A path that has to lead somewhere is seen from `here`. -/
def pathOf (t : FileTree) (here : Path) (g : Graph) (value : Value)
    (optional mustExist : Bool) : Except Failure (Option Path) :=
  match value with
  | .scalar .null =>
    if optional then .ok none
    else
      .error <| .command
        { kind := .validation
          message := "Path value cannot be None"
          hint := some "Provide a valid file or directory path" }
  | .scalar (.text text) => do
    let path := Path.ofText text
    if mustExist then
      if (← t.findFrom here.parts path).isNone then throw (notThere path)
    return some path
  | other => .error (notPath (g.typeName other))

/-- Fails if a path leads nowhere. -/
def requirePath (p : Path) : Action Unit := do
  if !(← Action.ofExcept ((← Action.files).contains p)) then throw (notThere p)

/-- The place of output that was asked for.  An option without a value is a list without words. -/
def outputPath (here : Path) (given : Option (Option String)) : Action (Option Path) := do
  match given with
  | some (some text) => return some (← Action.ofExcept (Path.resolve here (.ofText text)))
  | some none => throw (notPath "list")
  | none => return none

/-! ## Tasks -/

/-- The line for something that went well. -/
def successLine (message : String) : String :=
  "✓ " ++ message

/-- The choice of type annotations, if they were asked for. -/
def asked (annotated : Bool) : Option Bool :=
  if annotated then some true else none

/-- Compiles one document. -/
def transpile (c : Context) (input : String) (output : Option String)
    (annotated printsTree : Bool) : Action Unit := do
  let inputPath ← Action.ofExcept (Path.resolve c.here (.ofText input))
  requirePath inputPath
  let annotated := c.workspace.annotates (asked annotated)
  let document ← Action.load inputPath
  if printsTree then
    let tree ← Action.ofExcept (document.graph.plain document.root)
    Action.print (← Action.ofExcept (Json.pretty tree))
  else
    let code ← Action.ofTraced (Component.compile document.graph document.root annotated)
    let outputPath ←
      match ← outputPath c.here (output.map some) with
      | some path => pure path
      | none => Action.ofExcept (inputPath.output annotated)
    Action.change (FileChange.writeText outputPath code)
    Action.note (.wroteModule code.length outputPath.text)
    Action.print (successLine s!"Transpiled {input} → {outputPath.name}")

/-- The module that a document in a file comes to. -/
def moduleOf (p : Path) (annotated : Bool) : Action String := do
  let document ← Action.load p
  Action.ofTraced (Component.compile document.graph document.root annotated)

/-- The module that a document in a file comes to, or what is wrong if it does not fit the schema. -/
def moduleOrError (p : Path) (annotated : Bool) : Action (Except DocumentError String) :=
  tryCatch (do return .ok (← moduleOf p annotated)) fun f =>
    match f with
    | .document e => if e.kind == .schema then return .error e else throw f
    | _ => throw f

/-- What a build works on: the workspace, the directory with the documents, where modules are written
if not beside the documents, and whether they get type annotations. -/
structure Plan where
  workspace : Workspace
  sourceRoot : Path
  out : Option Path
  annotated : Bool
  deriving DecidableEq, Repr

namespace Plan

/-- The plan of a build. -/
def make (c : Context) (source : Option String) (out : Option (Option String))
    (annotated : Bool) : Action Plan := do
  let sourceRoot := (← Action.ofExcept (resolveGiven c.here source)).getD c.root
  requirePath sourceRoot
  let out := (← outputPath c.here out) <|> c.workspace.settings.moduleDirectory
  let annotated := c.workspace.annotates (asked annotated)
  return { workspace := c.workspace, sourceRoot, out, annotated }

/-- The documents that are compiled, in order. -/
def sources (plan : Plan) (t : FileTree) : Except Fault (List Path) :=
  plan.workspace.documentsIn t plan.sourceRoot

/-- Where the module for a document is written. -/
def target (plan : Plan) (source : Path) : Except Fault Path := do
  let target ← source.output plan.annotated
  match plan.out with
  | some out =>
    match target.relativeTo? plan.sourceRoot with
    | some rest => return out.join rest
    | none => throw (.notInside target.text plan.sourceRoot.text)
  | none => return target

/-- The line that is printed if every document was compiled. -/
def report (plan : Plan) (sources : List Path) : String :=
  if sources.isEmpty then
    s!"No YSX files matching {plan.workspace.settings.documents} in {plan.sourceRoot.text}"
  else successLine s!"Transpiled {sources.length} YSX file(s)"

end Plan

/-- Compiles one of several documents, and gives the report if it is none. -/
def buildOne (plan : Plan) (source : Path) : Action (Option String) := do
  let target ← Action.ofExcept (plan.target source)
  match ← moduleOrError source plan.annotated with
  | .ok code => do
    Action.change (FileChange.writeText target code)
    Action.note (.wrote target.text)
    return none
  | .error e => do
    Action.note (.failed source.text e.message)
    return some e.format

/-- The failure if some of several documents were none. -/
def buildFailure (reports : List String) (total : Nat) : Failure :=
  .command
    { kind := .build
      message := s!"{reports.length} of {total} YSX files failed to transpile"
      hint := some "Run with --verbose to see every failure"
      context := reports.mapIdx fun i report => (s!"failure_{i + 1}", report) }

/-- Compiles all documents of a build. -/
def buildAll (plan : Plan) (sources : List Path) : Action Unit := do
  let reports := (← sources.mapM (buildOne plan)).filterMap id
  if reports.isEmpty then Action.print (plan.report sources)
  else throw (buildFailure reports sources.length)

/-- Compiles all documents in a directory. -/
def build (c : Context) (source : Option String) (out : Option (Option String))
    (annotated : Bool) : Action Unit := do
  let plan ← Plan.make c source out annotated
  buildAll plan (← Action.ofExcept (plan.sources (← Action.files)))

/-- The name of the file with type declarations. -/
def declarationName : String := "ysx-env.d.ts"

/-- The type declarations for documents. -/
def declarations : String :=
  "declare module '*.ysx' \x7b\n" ++
  "  import \x7b ComponentType \x7d from 'react';\n" ++
  "  const Component: ComponentType<any>;\n" ++
  "  export default Component;\n" ++
  "\x7d\n"

/-- Writes the type declarations. -/
def types (c : Context) (out : Option (Option String)) : Action Unit := do
  let out := ((← outputPath c.here out) <|> c.workspace.settings.declarationDirectory).getD c.root
  let target := out.child declarationName
  Action.change (FileChange.writeText target declarations)
  Action.note (.wroteDeclarations target.text)
  Action.print (successLine ("Type declarations written to " ++ target.text))

/-- Performs a task. -/
def Task.perform (task : Task) (context : Option Context) : Action Unit :=
  match context with
  | none => throw noContext
  | some c =>
    match task with
    | .transpile input output annotated printsTree =>
      Command.transpile c input output annotated printsTree
    | .build source out annotated => Command.build c source out annotated
    | .types out => Command.types c out

end Componentry.Command
