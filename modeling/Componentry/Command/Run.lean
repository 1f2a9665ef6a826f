import Componentry.Command.Perform

/-!
# Running the program

A run takes arguments and files, and gives what is printed, how the run ends, and the files
afterwards.
-/

namespace Componentry.Command

/-- How a run ends. -/
inductive Ending where
  /-- With an exit code and perhaps a complaint about the arguments. -/
  | exit (code : Int) (complaint : String)
  /-- With a failure, which is shown. -/
  | failed (code : Int) (detailed : Bool) (f : Failure)
  /-- With a failure, which is passed on. -/
  | passed (f : Failure)

namespace Ending

/-- The exit code, unless a failure is passed on. -/
def code? : Ending → Option Int
  | .exit code _ | .failed code _ _ => some code
  | .passed _ => none

/-- The failure that is passed on, if one is. -/
def passed? : Ending → Option Failure
  | .passed f => some f
  | _ => none

/-- The text about the ending.  In detail it has `trace` at the end. -/
def text (trace : Failure → String) : Ending → String
  | .exit _ complaint => complaint
  | .failed _ false f => f.text false ++ "\n"
  | .failed _ true f => f.text true ++ "\n\nTraceback:\n" ++ trace f ++ "\n"
  | .passed _ => ""

/-- How a run ends with a failure. -/
def ofFailure (env : Environment) (verbose : Bool) (code : Int) (f : Failure) : Ending :=
  if env.passesFailures then .passed f else .failed code (verbose || env.isVerbose) f

end Ending

/-- What a run comes to. -/
structure Run where
  session : Session
  /-- The least level of the notes that are shown. -/
  level : NoteLevel := .warning
  ending : Ending

namespace Run

/-- The line for a note in the log. -/
def logLine (time : String) (n : Note) : String :=
  Text.joined " - " [time, n.channel, n.level.word, n.message] ++ "\n"

/-- What the run prints about itself: the notes and the ending. -/
def errors (r : Run) (time : String) (trace : Failure → String) : String :=
  let shown := r.session.notes.filter fun n => r.level.rank ≤ n.level.rank
  String.join (shown.map (logLine time)) ++ r.ending.text trace

end Run

/-- The level of the notes that are shown, by its word. -/
def levelOf (word : String) : NoteLevel :=
  match Text.lower word with
  | "debug" => .debug
  | "info" => .info
  | "error" => .error
  | _ => .warning

/-- The run of an action. -/
def runAction (env : Environment) (verbose : Bool) (level : NoteLevel) (files : FileTree)
    (action : Action Unit) : Run :=
  match action.run (.start env files) with
  | (.ok (), session) => { session, level, ending := .exit 0 "" }
  | (.error f, session) => { session, level, ending := .ofFailure env verbose 1 f }

/-- Runs the program. -/
def run (env : Environment) (here : Path) (files : FileTree) (arguments : List String) : Run :=
  match Request.ofArguments arguments with
  | .error (.shown text) =>
    { session := { files, printed := text }, ending := .exit 0 "" }
  | .error (.misused text) => { session := { files }, ending := .exit 2 text }
  | .ok request =>
    let level := levelOf (request.logLevel.getD ((env.get? "YSX_LOG_LEVEL").getD ""))
    match request.task with
    | none => { session := { files, printed := mainGrammar.help }, level, ending := .exit 1 "" }
    | some task =>
      runAction env request.verbose level files do
        let context ← Context.make env here request
        task.perform (some context)

end Componentry.Command
