import Componentry.Note
import Componentry.Settings

/-!
# Sessions

A session is one run of the program: the files as they are, what was printed and which notes were
made.  An `Action` works on a session.  It may fail; what it has done until then stays.  To print a
line is one of the steps that may fail.
-/

namespace Componentry.Command

/-- The state of a run. -/
structure Session where
  files : FileTree
  /-- What was printed. -/
  printed : String := ""
  notes : List Note := []
  /-- Why a line is refused, if it is. -/
  refusal : String → Option Fault := fun _ => none

/-- The session that a run starts with. -/
def Session.start (env : Environment) (files : FileTree) : Session :=
  { files, refusal := env.refusal }

/-- A step of a run. -/
abbrev Action := ExceptT Failure (StateM Session)

namespace Action

/-- Prints a line, unless it is refused. -/
def print (line : String) : Action Unit := do
  match (← get).refusal line with
  | some f => throw (.fault f)
  | none => modify fun s => { s with printed := s.printed ++ line ++ "\n" }

/-- Makes a note. -/
def note (n : Note) : Action Unit :=
  modify fun s => { s with notes := s.notes ++ [n] }

/-- Looks at the files. -/
def files : Action FileTree := do
  return (← get).files

/-- Gives a result or fails. -/
def ofExcept {α : Type} (r : Except Fault α) : Action α :=
  match r with
  | .ok a => return a
  | .error f => throw (.fault f)

/-- Gives the result of a computation and makes its notes. -/
def ofTraced {α : Type} (x : Traced α) : Action α := do
  modify fun s => { s with notes := s.notes ++ x.notes }
  ofExcept x.result

/-- Changes the files. -/
def change (c : FileChange Unit) : Action Unit := do
  let s ← get
  let (outcome, files) := c.run s.files
  set { s with files }
  ofExcept outcome

/-- Loads a document. -/
def load (p : Path) : Action Document := do
  match Document.load (← files) p with
  | .ok d => do
    note (.loaded d.logName)
    return d
  | .error f => throw f

end Action

end Componentry.Command
