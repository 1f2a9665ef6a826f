import Componentry.Text.Spot

/-!
# What can be wrong with a JSON text
-/

namespace Componentry.Json

/-- The problems of a JSON text. -/
inductive Problem where
  | valueExpected
  | nameExpected
  | colonExpected
  | commaExpected
  | unterminated
  | controlCharacter
  | badEscape
  | badUnicodeEscape
  | extraData
  | byteOrderMark
  deriving DecidableEq, Repr

/-- The text of a problem. -/
def Problem.text : Problem → String
  | .valueExpected => "Expecting value"
  | .nameExpected => "Expecting property name enclosed in double quotes"
  | .colonExpected => "Expecting ':' delimiter"
  | .commaExpected => "Expecting ',' delimiter"
  | .unterminated => "Unterminated string starting at"
  | .controlCharacter => "Invalid control character at"
  | .badEscape => "Invalid \\escape"
  | .badUnicodeEscape => "Invalid \\uXXXX escape"
  | .extraData => "Extra data"
  | .byteOrderMark => "Unexpected UTF-8 BOM (decode using utf-8-sig)"

/-- A problem and where it is. -/
structure Complaint where
  problem : Problem
  spot : Text.Spot
  deriving DecidableEq, Repr

/-- The text of a complaint. -/
def Complaint.message (c : Complaint) : String :=
  s!"{c.problem.text}: line {c.spot.line} column {c.spot.column} (char {c.spot.index})"

end Componentry.Json
