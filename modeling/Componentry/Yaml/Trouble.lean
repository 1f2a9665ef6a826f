import Componentry.Fault
import Componentry.Text.Quoted
import Componentry.Yaml.Mark

/-!
# What can be wrong with a text

A text is refused for a character that no text may contain, for a problem at a mark, or for a
fault in a scalar that has no place of its own.  A problem may come with the activity during which
it was met and the mark where that activity began.
-/

namespace Componentry.Yaml

/-- The activities during which a problem can be met. -/
inductive Activity where
  | nextToken
  | simpleKey
  | directive
  | directiveParts
  | anchor
  | «alias»
  | tag
  | tagParts
  | blockScalar
  | quotedScalar
  | doubleQuotedScalar
  | node
  | blockNode
  | flowNode
  | blockCollection
  | blockMapping
  | flowSequence
  | flowMapping
  | singleDocument
  | firstAnchor (name : String)
  | buildMapping
  | buildOrderedMap
  | buildPairs
  deriving DecidableEq, Repr

/-- The text of an activity. -/
def Activity.text : Activity → String
  | .nextToken => "while scanning for the next token"
  | .simpleKey => "while scanning a simple key"
  | .directive => "while scanning a directive"
  | .directiveParts => "while parsing a directive"
  | .anchor => "while scanning an anchor"
  | .alias => "while scanning an alias"
  | .tag => "while scanning a tag"
  | .tagParts => "while parsing a tag"
  | .blockScalar => "while scanning a block scalar"
  | .quotedScalar => "while scanning a quoted scalar"
  | .doubleQuotedScalar => "while scanning a double-quoted scalar"
  | .node => "while parsing a node"
  | .blockNode => "while parsing a block node"
  | .flowNode => "while parsing a flow node"
  | .blockCollection => "while parsing a block collection"
  | .blockMapping => "while parsing a block mapping"
  | .flowSequence => "while parsing a flow sequence"
  | .flowMapping => "while parsing a flow mapping"
  | .singleDocument => "expected a single document in the stream"
  | .firstAnchor name => s!"found duplicate anchor {Text.displayed name}; first occurrence"
  | .buildMapping => "while constructing a mapping"
  | .buildOrderedMap => "while constructing an ordered map"
  | .buildPairs => "while constructing pairs"

/-- The problems that have a place. -/
inductive Problem where
  /-- No token starts with this character. -/
  | cannotStart (c : Char)
  /-- A key is not followed by a colon. -/
  | missingColon
  | entryNotAllowed
  | keyNotAllowed
  | valueNotAllowed
  /-- Something else than this character is expected. -/
  | expected (what : String) (found : Char)
  /-- Something else than this token is expected. -/
  | expectedToken (what found : String)
  /-- A separator or the end of a flow collection is expected instead of this token. -/
  | expectedFlow (what found : String)
  | zeroIndentation
  | unknownEscape (c : Char)
  | unexpectedEnd
  | unexpectedSeparator
  /-- Escaped octets of a tag are no UTF-8. -/
  | undecodable (reason : String)
  | duplicateVersion
  | incompatibleVersion
  | duplicateHandle (handle : String)
  | undefinedHandle (handle : String)
  | undefinedAlias (name : String)
  | secondAnchor
  | anotherDocument
  /-- There is no way to read a value with this tag. -/
  | unknownTag (tag : String)
  /-- A node of another shape is expected. -/
  | expectedNode (what found : String)
  | unhashableKey
  | singleItem (count : Nat)
  /-- Octets are spelled with characters outside ASCII. -/
  | notAscii (reason : String)
  /-- Octets are not spelled in base 64. -/
  | notBase64 (reason : String)
  deriving DecidableEq, Repr

/-- The text of a problem. -/
def Problem.text : Problem → String
  | .cannotStart c => s!"found character {Text.displayed c.toString} that cannot start any token"
  | .missingColon => "could not find expected ':'"
  | .entryNotAllowed => "sequence entries are not allowed here"
  | .keyNotAllowed => "mapping keys are not allowed here"
  | .valueNotAllowed => "mapping values are not allowed here"
  | .expected what found => s!"expected {what}, but found {Text.displayed found.toString}"
  | .expectedToken what found => s!"expected {what}, but found {Text.displayed found}"
  | .expectedFlow what found => s!"expected {what}, but got {Text.displayed found}"
  | .zeroIndentation => "expected indentation indicator in the range 1-9, but found 0"
  | .unknownEscape c => s!"found unknown escape character {Text.displayed c.toString}"
  | .unexpectedEnd => "found unexpected end of stream"
  | .unexpectedSeparator => "found unexpected document separator"
  | .undecodable reason => reason
  | .duplicateVersion => "found duplicate YAML directive"
  | .incompatibleVersion => "found incompatible YAML document (version 1.* is required)"
  | .duplicateHandle handle => s!"duplicate tag handle {Text.displayed handle}"
  | .undefinedHandle handle => s!"found undefined tag handle {Text.displayed handle}"
  | .undefinedAlias name => s!"found undefined alias {Text.displayed name}"
  | .secondAnchor => "second occurrence"
  | .anotherDocument => "but found another document"
  | .unknownTag tag => s!"could not determine a constructor for the tag {Text.displayed tag}"
  | .expectedNode what found => s!"expected {what}, but found {found}"
  | .unhashableKey => "found unhashable key"
  | .singleItem count => s!"expected a single mapping item, but found {count} items"
  | .notAscii reason => s!"failed to convert base64 data into ascii: {reason}"
  | .notBase64 reason => s!"failed to decode base64 data: {reason}"

/-- Why a text is refused. -/
inductive Trouble where
  /-- No text may contain this character. -/
  | unacceptable (c : Char) (position : Nat)
  /-- A problem at a mark, perhaps during an activity that may have begun at another mark. -/
  | problem (during : Option (Activity × Option Mark)) (what : Problem) (mark : Mark)
  | fault (f : Fault)
  deriving DecidableEq, Repr

namespace Trouble

/-- A problem during an activity that began at a mark. -/
def within (activity : Activity) (start : Mark) (what : Problem) (mark : Mark) : Trouble :=
  .problem (some (activity, some start)) what mark

/-- The lines of a message on an activity. -/
def activityLines (source : List Char) (mark : Mark) : Option (Activity × Option Mark) → String
  | none => ""
  | some (activity, none) => activity.text ++ "\n"
  | some (activity, some start) =>
    activity.text ++ "\n" ++ (if start.samePlace mark then "" else start.text source ++ "\n")

/-- The text of a trouble with a source text. -/
def message (source : List Char) : Trouble → String
  | .unacceptable c position =>
    "unacceptable character #x" ++ String.ofList (Text.hexDigits 4 c.toNat) ++
      s!": special characters are not allowed\n  in \"<unicode string>\", position {position}"
  | .problem during what mark =>
    activityLines source mark during ++ what.text ++ "\n" ++ mark.text source
  | .fault f => f.message

/-- The mark of a trouble. -/
def mark? : Trouble → Option Mark
  | .problem _ _ mark => some mark
  | _ => none

end Trouble

end Componentry.Yaml
