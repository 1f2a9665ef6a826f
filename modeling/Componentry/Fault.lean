import Componentry.Calendar
import Componentry.Json.Complaint
import Componentry.Text.Digit
import Componentry.Text.Quoted
import Componentry.Text.Utf8
import Componentry.Toml.Complaint

/-!
# Faults

A fault is the cause of a failure that has no place in a document and no advice attached to it.
Each has a `message`, and a `kind` under which it is reported.
-/

namespace Componentry

/-- The places in a module where the printer expects a certain sort of node. -/
inductive Place where
  | statement
  | expression
  | pattern
  deriving DecidableEq, Repr

/-- The word for a place. -/
def Place.word : Place → String
  | .statement => "statement"
  | .expression => "expression"
  | .pattern => "pattern"

/-- The parts of a date and time that have a range. -/
inductive CalendarPart where
  | year (n : Nat)
  | month
  | day
  | hour
  | minute
  | second
  deriving DecidableEq, Repr

/-- The text for a part that is out of its range. -/
def CalendarPart.complaint : CalendarPart → String
  | .year n => s!"year {n} is out of range"
  | .month => "month must be in 1..12"
  | .day => "day is out of range for month"
  | .hour => "hour must be in 0..23"
  | .minute => "minute must be in 0..59"
  | .second => "second must be in 0..59"

/-- The ways in which a file system refuses an operation. -/
inductive Refusal where
  | notFound
  | alreadyThere
  | notDirectory
  | isDirectory
  | nameTooLong
  deriving DecidableEq, Repr

namespace Refusal

/-- The name under which a refusal is reported. -/
def kind : Refusal → String
  | .notFound => "FileNotFoundError"
  | .alreadyThere => "FileExistsError"
  | .notDirectory => "NotADirectoryError"
  | .isDirectory => "IsADirectoryError"
  | .nameTooLong => "OSError"

/-- The text of a refusal. -/
def text : Refusal → String
  | .notFound => "[Errno 2] No such file or directory"
  | .alreadyThere => "[Errno 17] File exists"
  | .notDirectory => "[Errno 20] Not a directory"
  | .isDirectory => "[Errno 21] Is a directory"
  | .nameTooLong => "[Errno 36] File name too long"

/-- Whether a refusal only says that nothing is there. -/
def isAbsence : Refusal → Bool
  | .notFound | .notDirectory => true
  | _ => false

end Refusal

/-- What can be wrong with a search pattern. -/
inductive PatternProblem where
  | empty
  | absolute
  /-- A double star is only a part of a name. -/
  | partialStars
  /-- There is nothing to search for. -/
  | noNames
  /-- Only the directory itself is searched for. -/
  | onlyDirectory
  deriving DecidableEq, Repr

namespace PatternProblem

/-- The name under which a problem is reported. -/
def kind : PatternProblem → String
  | .empty | .partialStars => "ValueError"
  | .absolute => "NotImplementedError"
  | .noNames => "IndexError"
  | .onlyDirectory => "AttributeError"

/-- The text of a problem. -/
def text : PatternProblem → String
  | .empty => "Unacceptable pattern: ''"
  | .absolute => "Non-relative patterns are unsupported"
  | .partialStars => "Invalid pattern: '**' can only be an entire path component"
  | .noNames => "tuple index out of range"
  | .onlyDirectory => "'_TerminatingSelector' object has no attribute 'select_from'"

end PatternProblem

/-- The causes of failures. -/
inductive Fault where
  /-- An integer is spelled with more digits than are read. -/
  | tooManyDigits (count : Nat)
  /-- An integer has more digits than are written. -/
  | integerTooLong
  /-- A node of the given kind stands where a node of another sort belongs. -/
  | misplaced (place : Place) (kind : String)
  /-- A thing of the given type has no such member. -/
  | noMember (type member : String)
  /-- A thing of the given type has no items to go through. -/
  | notIterable (type : String)
  /-- A value of the given type cannot be looked up in a set. -/
  | unhashable (type : String)
  /-- Nothing is known under this word. -/
  | unknownWord (word : String)
  /-- The first character of an empty text is asked for. -/
  | noCharacter
  /-- A text is no integer in a base. -/
  | notInteger (base : Nat) (text : String)
  /-- A text is no number. -/
  | notNumber (text : String)
  /-- An integer is beyond all numbers with a fraction. -/
  | beyondFloat
  /-- A text is expected instead of a value of this type. -/
  | textExpected (type : String)
  /-- A part of a date or time is out of its range. -/
  | outOfRange (part : CalendarPart)
  /-- An offset of so many seconds is a day or more. -/
  | offsetOutOfRange (seconds : Int)
  /-- A number is no code point. -/
  | noCodePoint
  /-- A number does not fit into a machine integer. -/
  | beyondMachine
  /-- Octets are no text. -/
  | undecodable (defect : Text.Defect)
  /-- What a value stands for is looked up again and again. -/
  | endless
  /-- A path has no name that could be changed. -/
  | emptyName (path : String)
  /-- A path does not lie behind another one. -/
  | notInside (path base : String)
  /-- The file system refuses an operation on a path. -/
  | refused (how : Refusal) (path : String)
  /-- A path holds a character that no path may hold. -/
  | nullInPath
  | badPattern (problem : PatternProblem)
  | badJson (complaint : Json.Complaint)
  | badToml (complaint : Toml.Complaint)
  /-- A value of this type cannot be written as JSON. -/
  | notSerializable (type : String)
  /-- An error of the given sort is made with a part that it does not have. -/
  | unexpectedPart (sort part : String)
  /-- A command error of the general sort is made without a code. -/
  | missingCode
  /-- A fault of another kind that arose elsewhere. -/
  | foreign (kind message : String)
  deriving DecidableEq, Repr

namespace Fault

/-- The name under which a fault is reported. -/
def kind : Fault → String
  | .tooManyDigits _ | .integerTooLong | .notInteger _ _ | .notNumber _ | .outOfRange _
  | .offsetOutOfRange _ | .noCodePoint | .emptyName _ | .notInside _ _ | .nullInPath => "ValueError"
  | .misplaced _ _ | .notIterable _ | .unhashable _ | .textExpected _ | .notSerializable _
  | .unexpectedPart _ _ | .missingCode => "TypeError"
  | .unknownWord _ => "KeyError"
  | .noCharacter => "IndexError"
  | .beyondFloat | .beyondMachine => "OverflowError"
  | .undecodable _ => "UnicodeDecodeError"
  | .endless => "RecursionError"
  | .refused how _ => how.kind
  | .badPattern problem => problem.kind
  | .badJson _ => "JSONDecodeError"
  | .badToml _ => "TOMLDecodeError"
  | .foreign kind _ => kind
  | .noMember _ _ => "AttributeError"

/-- The text of a fault. -/
def message : Fault → String
  | .tooManyDigits count =>
    s!"Exceeds the limit ({Text.digitLimit} digits) for integer string conversion: " ++
      s!"value has {count} digits; use sys.set_int_max_str_digits() to increase the limit"
  | .integerTooLong =>
    s!"Exceeds the limit ({Text.digitLimit} digits) for integer string conversion; " ++
      "use sys.set_int_max_str_digits() to increase the limit"
  | .misplaced place kind => s!"Cannot generate {place.word} for {kind}"
  | .noMember type member => s!"'{type}' object has no attribute '{member}'"
  | .notIterable type => s!"'{type}' object is not iterable"
  | .unhashable type => s!"unhashable type: '{type}'"
  | .unknownWord word => Text.displayed word
  | .noCharacter => "string index out of range"
  | .notInteger base text =>
    s!"invalid literal for int() with base {base}: " ++
      String.ofList ((Text.displayed text).toList.take 200)
  | .notNumber text => s!"could not convert string to float: {Text.displayed text}"
  | .beyondFloat => "int too large to convert to float"
  | .textExpected type => s!"expected string or bytes-like object, got '{type}'"
  | .outOfRange part => part.complaint
  | .offsetOutOfRange seconds =>
    "offset must be a timedelta strictly between -timedelta(hours=24) and timedelta(hours=24), " ++
      s!"not {spanDebug seconds}."
  | .noCodePoint => "chr() arg not in range(0x110000)"
  | .beyondMachine => "Python int too large to convert to C int"
  | .undecodable defect => defect.message
  | .endless => "maximum recursion depth exceeded"
  | .emptyName path => s!"PosixPath({Text.displayed path}) has an empty name"
  | .notInside path base =>
    s!"{Text.displayed path} is not in the subpath of {Text.displayed base} " ++
      "OR one path is relative and the other is absolute."
  | .refused how path => s!"{how.text}: {Text.displayed path}"
  | .nullInPath => "embedded null byte"
  | .badPattern problem => problem.text
  | .badJson complaint => complaint.message
  | .badToml complaint => complaint.message
  | .notSerializable type => s!"Object of type {type} is not JSON serializable"
  | .unexpectedPart sort part => s!"{sort}.__init__() got an unexpected keyword argument '{part}'"
  | .missingCode => "CLIError.__init__() missing 1 required keyword-only argument: 'code'"
  | .foreign _ message => message

end Fault

/-- The digits of an integer, or the fault that there are too many of them. -/
def integerText (n : Int) : Except Fault String :=
  match Text.integerText? n with
  | some s => .ok s
  | none => .error .integerTooLong

end Componentry
