import Componentry.Yaml.Mark

/-!
# Tokens

A text is a row of tokens, each with the marks where it starts and ends.
-/

namespace Componentry.Yaml

/-- What a directive says. -/
inductive Directive where
  | version (major minor : Nat)
  | tag (handle expansion : String)
  /-- A directive of another name. -/
  | other
  deriving DecidableEq, Repr

/-- The sorts of tokens. -/
inductive TokenKind where
  | streamEnd
  | directive (d : Directive)
  | documentStart
  | documentEnd
  | blockSequenceStart
  | blockMappingStart
  | blockEnd
  | flowSequenceStart
  | flowSequenceEnd
  | flowMappingStart
  | flowMappingEnd
  | blockEntry
  | flowEntry
  | key
  | value
  | «alias» (name : String)
  | anchor (name : String)
  /-- A tag: a handle to be expanded, unless the tag is given in full, and the rest. -/
  | tag (handle : Option String) (suffix : String)
  /-- A scalar; `plain` says whether it is written without marks. -/
  | scalar (text : String) (plain : Bool)
  deriving DecidableEq, Repr

/-- The name of a sort of token in messages. -/
def TokenKind.label : TokenKind → String
  | .streamEnd => "<stream end>"
  | .directive _ => "<directive>"
  | .documentStart => "<document start>"
  | .documentEnd => "<document end>"
  | .blockSequenceStart => "<block sequence start>"
  | .blockMappingStart => "<block mapping start>"
  | .blockEnd => "<block end>"
  | .flowSequenceStart => "["
  | .flowSequenceEnd => "]"
  | .flowMappingStart => "\x7b"
  | .flowMappingEnd => "\x7d"
  | .blockEntry => "-"
  | .flowEntry => ","
  | .key => "?"
  | .value => ":"
  | .alias _ => "<alias>"
  | .anchor _ => "<anchor>"
  | .tag _ _ => "<tag>"
  | .scalar _ _ => "<scalar>"

/-- A token and its place. -/
structure Token where
  kind : TokenKind
  start : Mark
  stop : Mark
  deriving DecidableEq, Repr

end Componentry.Yaml
