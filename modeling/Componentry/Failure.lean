import Componentry.Fault
import Componentry.Text.Entries
import Componentry.Text.Join

/-!
# Failures

What can go wrong comes in three forms.

* A *document error* says where in which document something is wrong, under which code it can be
  looked up, and what to do about it.
* A *command error* belongs to a command of the command line; it carries further facts in a list.
* A *fault* is anything else.
-/

namespace Componentry

/-- A text that is there and not empty. -/
def present (s : Option String) : List String :=
  s.toList.filter (!·.isEmpty)

/-- What an error is made from besides its message.  No sort of error has all these parts. -/
structure ErrorParts where
  path : Option String := none
  line : Option Int := none
  column : Option Int := none
  code : Option String := none
  hint : Option String := none
  context : Option (List (String × String)) := none
  deriving DecidableEq, Repr

/-- The parts that say where an error is, by their names. -/
def ErrorParts.placeNames (parts : ErrorParts) : List String :=
  (parts.path.toList.map fun _ => "path") ++ (parts.line.toList.map fun _ => "line") ++
    parts.column.toList.map fun _ => "column"

/-- The sorts of document errors. -/
inductive DocumentErrorKind where
  | general
  /-- A document cannot be read, or lacks what every document needs. -/
  | schema
  deriving DecidableEq, Repr

namespace DocumentErrorKind

/-- The name under which a sort of error is reported. -/
def name : DocumentErrorKind → String
  | .general => "YSXError"
  | .schema => "SchemaError"

/-- The code of errors that give none. -/
def defaultCode? : DocumentErrorKind → Option String
  | .general => none
  | .schema => some "YSX_SCHEMA_ERROR"

end DocumentErrorKind

/-- Something wrong in a document. -/
structure DocumentError where
  kind : DocumentErrorKind
  message : String
  path : Option String := none
  line : Option Int := none
  column : Option Int := none
  code : Option String := kind.defaultCode?
  hint : Option String := none
  deriving DecidableEq, Repr

namespace DocumentError

/-- A document error of some sort, which has no context. -/
def make (kind : DocumentErrorKind) (message : String) (parts : ErrorParts) :
    Except Fault DocumentError :=
  match parts.context with
  | some _ => .error (.unexpectedPart DocumentErrorKind.general.name "context")
  | none =>
    .ok { kind, message, path := parts.path, line := parts.line, column := parts.column
          code := parts.code <|> kind.defaultCode?, hint := parts.hint }

/-- The place of an error: the path, the line if it is known, and the column if both are. -/
def location (e : DocumentError) : Option String :=
  match present e.path with
  | path :: _ =>
    let line := e.line.toList.map toString
    let column := if e.line.isSome then e.column.toList.map toString else []
    some (Text.joined ":" (path :: (line ++ column)))
  | [] => none

/-- The message with place, code and hint. -/
def format (e : DocumentError) : String :=
  let facts := present e.location ++ present e.code
  let text := if facts.isEmpty then e.message
    else e.message ++ " (" ++ Text.joined "; " facts ++ ")"
  match present e.hint with
  | hint :: _ => text ++ " Hint: " ++ hint
  | [] => text

end DocumentError

/-- The sorts of command errors. -/
inductive CommandErrorKind where
  | general
  | config
  | validation
  | build
  | fileNotFound
  deriving DecidableEq, Repr

namespace CommandErrorKind

/-- The name under which a sort of error is reported. -/
def name : CommandErrorKind → String
  | .general => "CLIError"
  | .config => "CLIConfigError"
  | .validation => "CLIValidationError"
  | .build => "CLIBuildError"
  | .fileNotFound => "CLIFileNotFoundError"

/-- The code of errors that give none. -/
def defaultCode? : CommandErrorKind → Option String
  | .general => none
  | .config => some "CLI_CONFIG_ERROR"
  | .validation => some "CLI_VALIDATION_ERROR"
  | .build => some "CLI_BUILD_ERROR"
  | .fileNotFound => some "CLI_FILE_NOT_FOUND"

end CommandErrorKind

/-- A failure of a command.  The context lists further facts by name. -/
structure CommandError where
  kind : CommandErrorKind
  message : String
  code : String := kind.defaultCode?.getD ""
  hint : Option String := none
  context : List (String × String) := []
  deriving DecidableEq, Repr

namespace CommandError

/-- A command error of some sort, which has no place.  The general sort has no code of its own, so
one has to be given; of two facts with the same name the last counts. -/
def make (kind : CommandErrorKind) (message : String) (parts : ErrorParts) :
    Except Fault CommandError :=
  match parts.placeNames, parts.code <|> kind.defaultCode? with
  | part :: _, _ => .error (.unexpectedPart CommandErrorKind.general.name part)
  | [], some code =>
    let context := Entries.ofList (parts.context.getD [])
    .ok { kind, message, code, hint := parts.hint, context }
  | [], none => .error .missingCode

/-- The lines of a command error; the context is only shown in detail. -/
def lines (e : CommandError) (detailed : Bool) : List String :=
  let context :=
    if detailed && !e.context.isEmpty then
      "\nContext:" :: e.context.map fun (name, value) => s!"  {name}: {value}"
    else []
  s!"Error [{e.code}]: {e.message}" :: ((present e.hint).map ("Hint: " ++ ·) ++ context)

end CommandError

/-- A failure of any form. -/
inductive Failure where
  | fault (f : Fault)
  | document (e : DocumentError)
  | command (e : CommandError)
  deriving DecidableEq, Repr

namespace Failure

/-- The name under which a failure is reported. -/
def kind : Failure → String
  | .fault f => f.kind
  | .document e => e.kind.name
  | .command e => e.kind.name

/-- The text of a failure. -/
def message : Failure → String
  | .fault f => f.message
  | .document e => e.message
  | .command e => e.message

/-- The lines of a failure as they are shown. -/
def lines (f : Failure) (detailed : Bool) : List String :=
  match f with
  | .fault f => [s!"Error: {f.kind}: {f.message}"]
  | .document e => ["Error: " ++ e.format]
  | .command e => e.lines detailed

/-- The text of a failure as it is shown. -/
def text (f : Failure) (detailed : Bool) : String :=
  Text.joined "\n" (f.lines detailed)

/-- A failure as the cause of a command error, which keeps its text and its kind. -/
def wrap (f : Failure) (kind : CommandErrorKind) (message : String) (parts : ErrorParts) :
    Except Fault CommandError :=
  let cause := [("original_exception", f.message), ("original_type", f.kind)]
  CommandError.make kind message { parts with context := some (parts.context.getD [] ++ cause) }

end Failure

instance : MonadLift (Except Fault) (Except Failure) where
  monadLift x := x.mapError .fault

end Componentry
