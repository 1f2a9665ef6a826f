import Componentry.Document.File
import Componentry.Environment
import Componentry.Glob
import Componentry.Json.Reader
import Componentry.Toml.Reader

/-!
# Settings

A workspace is a directory with documents.  It may have a file with settings, in TOML or in JSON:
whether modules get type annotations, where modules and type declarations are written, and which
files are documents.
-/

namespace Componentry

/-- The settings of a workspace. -/
structure Settings where
  /-- Whether modules get type annotations. -/
  annotated : Bool := false
  /-- Where modules are written, if not beside the documents. -/
  moduleDirectory : Option Path := none
  /-- Which files are documents. -/
  documents : String := "**/*.ysx"
  /-- Where type declarations are written, if not in the workspace. -/
  declarationDirectory : Option Path := none
  deriving DecidableEq, Repr

/-- A workspace, and the file that its settings are from. -/
structure Workspace where
  root : Path
  settings : Settings := {}
  source : Option Path := none
  deriving DecidableEq, Repr

namespace Settings

/-- The names of files with settings, the preferred one first. -/
def fileNames : List String :=
  ["ysx.toml", ".ysxrc"]

/-- The file with the settings of a workspace.  If one is given, no other is looked for. -/
def locate (t : FileTree) (root : Path) (given : Option Path) : Except Fault (Option Path) :=
  match given with
  | some path => [path].findM? t.contains
  | none => (fileNames.map root.child).findM? t.contains

/-- The content of a file with settings, which is TOML if its suffix says so. -/
def content (t : FileTree) (path : Path) : Except Fault Tree := do
  let octets ← t.read path
  if path.suffix == ".toml" then
    Toml.parse (← (Text.decode octets.data.toList).mapError .undecodable)
  else Json.parse (← (Text.ofOctets octets).mapError .undecodable)

/-- The entries of a map. -/
def entriesOf : Tree → Except Fault (List (Tree × Tree))
  | .map entries => .ok entries
  | other => .error (.noMember other.fullTypeName "get")

/-- A value that counts as something. -/
def present? (entries : List (Tree × Tree)) (name : String) : Option Tree :=
  (Tree.lookup entries name).filter (!·.isVoid)

/-- A directory in the settings; it is seen from the root of the workspace. -/
def directory? (root : Path) (value : Option Tree) : Except Fault (Option Path) := do
  match value with
  | none => return none
  | some value =>
    let path := Path.ofText (← value.display)
    if path.isAbsolute then return some path else return some (← Path.resolve root path)

/-- The settings that the content of a file gives.  The environment may overrule it. -/
def ofTree (env : Environment) (root : Path) (content : Tree) : Except Fault Settings := do
  let defaults := (present? (← entriesOf content) "defaults").getD (.map [])
  let entries ← entriesOf defaults
  let annotated := (env.flag? "YSX_TYPESCRIPT").getD (present? entries "typescript").isSome
  let documents ←
    match present? entries "source_glob" with
    | some value => value.display
    | none => pure ({} : Settings).documents
  let moduleDirectory ← directory? root (present? entries "out_dir")
  let declarationDirectory ← directory? root (present? entries "types_out")
  return { annotated, moduleDirectory, documents, declarationDirectory }

end Settings

namespace Workspace

/-- The workspace in a directory. -/
def load (t : FileTree) (env : Environment) (here root : Path) (given : Option Path) :
    Except Fault Workspace := do
  let root ← Path.resolve here root
  let source ← Settings.locate t root given
  let content ←
    match source with
    | some path => Settings.content t path
    | none => pure (.map [])
  return { root, settings := ← Settings.ofTree env root content, source }

/-- The documents in a directory of the workspace, in the order of their paths. -/
def documentsIn (w : Workspace) (t : FileTree) (base : Path) : Except Fault (List Path) := do
  (← Glob.ofText w.settings.documents).files t base

/-- Whether modules get type annotations, which may be asked for. -/
def annotates (w : Workspace) (asked : Option Bool) : Bool :=
  asked.getD w.settings.annotated

end Workspace

end Componentry
