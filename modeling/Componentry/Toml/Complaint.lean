import Componentry.Text.Join
import Componentry.Text.Quoted
import Componentry.Text.Spot

/-!
# What can be wrong with a TOML text
-/

namespace Componentry.Toml

/-- A key with its dots: the names from the root on. -/
abbrev Key := List String

/-- The text of a key in messages. -/
def keyText (key : Key) : String :=
  match key.map Text.displayed with
  | [name] => "(" ++ name ++ ",)"
  | names => "(" ++ Text.joined ", " names ++ ")"

/-- The problems of a TOML text. -/
inductive Problem where
  | invalidStatement
  | newlineExpected
  | invalidKey
  | equalsExpected
  | invalidValue
  | invalidDate
  | unclosedArray
  | unclosedTable
  /-- The end of a table or an array of tables is expected. -/
  | headerEnd (ofArray : Bool)
  | declaredTwice (key : Key)
  | overwritten
  | immutable (key : Key)
  | redefined (key : Key)
  | duplicateKey (name : String)
  | unterminated
  | illegal (c : Char)
  /-- This character is not allowed here. -/
  | invalidCharacter (c : Char)
  /-- This text is expected further on. -/
  | expected (text : String)
  | badEscape
  | badHex
  | noScalarValue
  deriving DecidableEq, Repr

/-- The text of a problem. -/
def Problem.text : Problem → String
  | .invalidStatement => "Invalid statement"
  | .newlineExpected => "Expected newline or end of document after a statement"
  | .invalidKey => "Invalid initial character for a key part"
  | .equalsExpected => "Expected '=' after a key in a key/value pair"
  | .invalidValue => "Invalid value"
  | .invalidDate => "Invalid date or datetime"
  | .unclosedArray => "Unclosed array"
  | .unclosedTable => "Unclosed inline table"
  | .headerEnd false => "Expected ']' at the end of a table declaration"
  | .headerEnd true => "Expected ']]' at the end of an array declaration"
  | .declaredTwice key => s!"Cannot declare {keyText key} twice"
  | .overwritten => "Cannot overwrite a value"
  | .immutable key => s!"Cannot mutate immutable namespace {keyText key}"
  | .redefined key => s!"Cannot redefine namespace {keyText key}"
  | .duplicateKey name => s!"Duplicate inline table key {Text.displayed name}"
  | .unterminated => "Unterminated string"
  | .illegal c => s!"Illegal character {Text.displayed c.toString}"
  | .invalidCharacter c => s!"Found invalid character {Text.displayed c.toString}"
  | .expected text => s!"Expected {Text.displayed text}"
  | .badEscape => "Unescaped '\\' in a string"
  | .badHex => "Invalid hex value"
  | .noScalarValue => "Escaped character is not a Unicode scalar value"

/-- A problem and where it is; `none` is the end of the text. -/
structure Complaint where
  problem : Problem
  spot : Option Text.Spot
  deriving DecidableEq, Repr

/-- The text of a complaint. -/
def Complaint.message (c : Complaint) : String :=
  match c.spot with
  | some spot => s!"{c.problem.text} (at line {spot.line}, column {spot.column})"
  | none => s!"{c.problem.text} (at end of document)"

end Componentry.Toml
