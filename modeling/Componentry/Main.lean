import Componentry.Command.Run
import Std.Time.Format

/-!
# The program

A run is a function of the arguments, the environment and the files.  Here the files are read
before it, and what has changed is written after it.
-/

namespace Componentry

/-- The variables of the environment that a run looks at. -/
def environmentNames : List String :=
  ["YSX_VERBOSE", "YSX_DEBUG", "YSX_RERAISE", "YSX_TYPESCRIPT", "YSX_LOG_LEVEL"]

/-- The environment of the program. -/
def readEnvironment : IO Environment := do
  let entries ← environmentNames.filterMapM fun name => do
    return (← IO.getEnv name).map (name, ·)
  return { entries }

/-- Adds what is at a path to a tree, with all that lies below it.  What cannot be read is left
out, and so are directories behind links. -/
partial def addTo (t : FileTree) (p : Path) : IO FileTree := do
  let file := (← IO.currentDir) / p.text
  try
    match (← file.symlinkMetadata).type with
    | .dir =>
      let entries ← file.readDir
      entries.foldlM (fun t entry => addTo t (p.child entry.fileName)) (t.insert p.parts .directory)
    | _ =>
      if (← file.metadata).type == .file then
        return t.insert p.parts (.file (← IO.FS.readBinFile file))
      else return t
  catch _ => return t

/-- Adds the directories on the way to a path to a tree. -/
def addAbove (t : FileTree) (p : Path) : IO FileTree := do
  let above := (List.range p.parts.length).map p.parts.take
  above.foldlM (fun t place => do
    let directory := (← IO.currentDir) / Path.text ⟨.root, place⟩
    if !place.isEmpty && (← directory.isDir) then return t.insert place .directory else return t) t

/-- The paths that a run may look at: where it runs, and whatever the arguments name. -/
def pathsToRead (here : Path) (arguments : List String) : List Path :=
  let named := arguments.flatMap fun argument =>
    let (_, attached) := Command.splitEquals argument.toList
    (argument :: (attached.map String.ofList).toList).filterMap fun text =>
      (Path.resolve here (.ofText text)).toOption
  here :: named.filter fun p => !here.parts.isPrefixOf p.parts

/-- The files that a run may look at. -/
def readFiles (here : Path) (arguments : List String) : IO FileTree :=
  (pathsToRead here arguments).foldlM (fun t p => do addTo (← addAbove t p) p) {}

/-- Writes what is different in a tree. -/
def writeChanges (before after : FileTree) : IO Unit := do
  for (place, entry) in after.changesSince before do
    let path := Path.text ⟨.root, place⟩
    match entry with
    | .directory => IO.FS.createDirAll path
    | .file octets => IO.FS.writeBinFile path octets

/-- The last line of the report on a failure. -/
def lastLine (f : Failure) : String :=
  f.kind ++ ": " ++ f.message

/-- Runs the program. -/
def runProgram (arguments : List String) : IO UInt32 := do
  let here := Path.ofText (← IO.currentDir).toString
  let files ← readFiles here arguments
  let run := Command.run (← readEnvironment) here files arguments
  writeChanges files run.session.files
  let time := (← Std.Time.PlainDateTime.now).format "uuuu-MM-dd HH:mm:ss,SSS"
  IO.print run.session.printed
  IO.eprint (run.errors time lastLine)
  match run.ending with
  | .passed f =>
    IO.eprintln (lastLine f)
    return 1
  | ending => return ((ending.code?.getD 0) % 256).toNat.toUInt32

end Componentry

/-- Runs the program with the arguments of the command line. -/
def main (arguments : List String) : IO UInt32 :=
  Componentry.runProgram arguments
