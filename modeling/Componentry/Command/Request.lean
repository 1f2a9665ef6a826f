import Componentry.Command.Grammar
import Componentry.Note

/-!
# Requests

What the program is asked to do: the arguments as values.
-/

namespace Componentry.Command

/-- A task of the program. -/
inductive Task where
  /-- Compiles one document. -/
  | transpile (input : String) (output : Option String) (annotated printsTree : Bool)
  /-- Compiles all documents in a directory.  The place of output may be asked for and still be
  missing. -/
  | build (source : Option String) (out : Option (Option String)) (annotated : Bool)
  /-- Writes the type declarations for documents. -/
  | types (out : Option (Option String))
  deriving DecidableEq, Repr

/-- What the program is asked to do. -/
structure Request where
  settings : Option String := none
  workspace : Option String := none
  verbose : Bool := false
  logLevel : Option String := none
  task : Option Task := none
  deriving DecidableEq, Repr

/-! ## Grammars -/

/-- The option that shows the help. -/
def helpOption : OptionRule :=
  ⟨["-h", "--help"], .help⟩

/-- The option that asks for type annotations. -/
def annotatedOption : OptionRule :=
  ⟨["--typescript"], .switch⟩

/-- The option for the place of output. -/
def outOption : OptionRule :=
  ⟨["--out", "-o"], .value []⟩

/-- The names of the tasks. -/
def taskNames : List String :=
  ["transpile", "build", "types"]

/-- The arguments of the program. -/
def mainGrammar : Grammar where
  program := "ysx"
  usage :=
    "usage: ysx [-h] [--version] [--config CONFIG] [--workspace WORKSPACE]\n" ++
    "           [--verbose] [--log-level \x7bdebug,info,warn,error\x7d]\n" ++
    "           \x7btranspile,build,types\x7d ...\n"
  description :=
    "CLI tool for transpiling YSX (YAML Syntax Extension) files\n" ++
    "\n" ++
    "positional arguments:\n" ++
    "  \x7btranspile,build,types\x7d\n" ++
    "                        Available commands\n" ++
    "    transpile           Transpile a YSX file to JSX/TSX\n" ++
    "    build               Transpile every YSX file under a directory\n" ++
    "    types               Write the TypeScript declaration for '*.ysx' imports\n" ++
    "\n" ++
    "options:\n" ++
    "  -h, --help            show this help message and exit\n" ++
    "  --version             show program's version number and exit\n" ++
    "  --config CONFIG       Path to a ysx.toml configuration file\n" ++
    "  --workspace WORKSPACE\n" ++
    "                        Workspace root directory (defaults to current working\n" ++
    "                        directory)\n" ++
    "  --verbose             Print full tracebacks and detailed CLI errors (or set\n" ++
    "                        YSX_VERBOSE=1)\n" ++
    "  --log-level \x7bdebug,info,warn,error\x7d\n" ++
    "                        Set logging level (or set YSX_LOG_LEVEL)\n"
  version := "ysx 1.0.0\n"
  options :=
    [helpOption, ⟨["--version"], .version⟩, ⟨["--config"], .value []⟩,
     ⟨["--workspace"], .value []⟩, ⟨["--verbose"], .switch⟩,
     ⟨["--log-level"], .value ["debug", "info", "warn", "error"]⟩]
  places := [⟨"command", .rest⟩]

/-- The arguments for compiling one document. -/
def transpileGrammar : Grammar where
  program := "ysx transpile"
  usage := "usage: ysx transpile [-h] [--typescript] [--print-ast] input [output]\n"
  description :=
    "positional arguments:\n" ++
    "  input         Input YSX file\n" ++
    "  output        Output file (optional)\n" ++
    "\n" ++
    "options:\n" ++
    "  -h, --help    show this help message and exit\n" ++
    "  --typescript  Generate TypeScript output\n" ++
    "  --print-ast   Print the parsed document tree as JSON and exit\n"
  options := [helpOption, annotatedOption, ⟨["--print-ast"], .switch⟩]
  places := [⟨"input", .one⟩, ⟨"output", .atMostOne⟩]

/-- The arguments for compiling all documents in a directory. -/
def buildGrammar : Grammar where
  program := "ysx build"
  usage := "usage: ysx build [-h] [--out OUT] [--typescript] [src]\n"
  description :=
    "positional arguments:\n" ++
    "  src                Source directory (defaults to the workspace root)\n" ++
    "\n" ++
    "options:\n" ++
    "  -h, --help         show this help message and exit\n" ++
    "  --out OUT, -o OUT  Output directory (defaults to beside each source file)\n" ++
    "  --typescript       Generate TypeScript output\n"
  options := [helpOption, outOption, annotatedOption]
  places := [⟨"src", .atMostOne⟩]

/-- The arguments for writing the type declarations. -/
def typesGrammar : Grammar where
  program := "ysx types"
  usage := "usage: ysx types [-h] [--out OUT]\n"
  description :=
    "options:\n" ++
    "  -h, --help         show this help message and exit\n" ++
    "  --out OUT, -o OUT  Directory for ysx-env.d.ts\n"
  options := [helpOption, outOption]
  places := []

/-! ## Reading -/

/-- The task with a name, and the arguments that it does not take. -/
def readTask (name : String) (arguments : List String) : Except Halt (Task × List String) := do
  match name with
  | "transpile" =>
    let r ← transpileGrammar.read arguments
    let task := .transpile ((r.place? "input").getD "") (r.place? "output")
      (r.isOn "--typescript") (r.isOn "--print-ast")
    return (task, r.extra)
  | "build" =>
    let r ← buildGrammar.read arguments
    return (.build (r.place? "src") (r.option? "--out") (r.isOn "--typescript"), r.extra)
  | "types" =>
    let r ← typesGrammar.read arguments
    return (.types (r.option? "--out"), r.extra)
  | _ => throw (mainGrammar.wrongChoice "command" name taskNames)

/-- The request that arguments spell. -/
def Request.ofArguments (arguments : List String) : Except Halt Request := do
  let r ← mainGrammar.read arguments
  let (task, extra) ←
    match r.places.lookup "command" with
    | some (name :: arguments) => do
      let (task, extra) ← readTask name arguments
      pure (some task, r.extra ++ extra)
    | _ => pure (none, r.extra)
  if !extra.isEmpty then
    throw (mainGrammar.misuse ("unrecognized arguments: " ++ Text.joined " " extra))
  return {
    settings := r.value? "--config"
    workspace := r.value? "--workspace"
    verbose := r.isOn "--verbose"
    logLevel := r.value? "--log-level"
    task }

end Componentry.Command
