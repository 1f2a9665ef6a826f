import Componentry.Yaml.Node
import Componentry.Yaml.Token.Stream

/-!
# From tokens to nodes

The nodes of a document are read off its tokens from left to right, one function for each kind of
collection.  Tokens are looked at only when they are needed, and so the trouble behind the last
token counts only if everything up to there is in order.

An anchor names a node as soon as the node is started, so an alias can refer to a node around it.

## Termination

Every function has a limit on the depth of calls.  Between two calls without a token in between
there is at most one other, so twice the number of tokens is enough.
-/

namespace Componentry.Yaml

/-- The handles of tags that are always known. -/
def defaultHandles : List (String × String) :=
  [("!", "!"), ("!!", commonTag "")]

/-- The state of reading nodes. -/
structure Reading where
  tokens : List Token
  /-- What comes behind the last token. -/
  trouble : Option Trouble
  nodes : Array Node := #[]
  anchors : List (String × NodeId) := []
  handles : List (String × String) := defaultHandles

/-- A step of reading nodes. -/
abbrev Reader := StateT Reading (Except Trouble)

namespace Reader

/-! ## Tokens -/

/-- The next token. -/
def peek : Reader Token := do
  let s ← get
  match s.tokens with
  | token :: _ => return token
  | [] => throw (s.trouble.getD (.problem none .unexpectedEnd {}))

/-- Goes on behind the next token. -/
def skip : Reader Unit :=
  modify fun s => { s with tokens := s.tokens.drop 1 }

/-- The complaint that the next token is not what is needed. -/
def refuse {α : Type} (activity : Activity) (start : Mark) (problem : String → Problem) :
    Reader α := do
  let token ← peek
  throw (.within activity start (problem token.kind.label) token.start)

/-! ## Nodes -/

/-- Adds a node under an anchor, if there is one. -/
def add (anchor : Option String) (node : Node) : Reader NodeId := do
  let s ← get
  let id := s.nodes.size
  match anchor with
  | none => set { s with nodes := s.nodes.push node }
  | some name =>
    match s.anchors.lookup name with
    | some first =>
      let start := (s.nodes[first]?.map (·.mark)).getD {}
      throw (.within (.firstAnchor name) start .secondAnchor node.mark)
    | none => set { s with nodes := s.nodes.push node, anchors := (name, id) :: s.anchors }
  return id

/-- Fills a collection that was added before. -/
def fill (id : NodeId) (content : Content) : Reader Unit :=
  modify fun s => { s with nodes := s.nodes.modify id fun node => { node with content } }

/-- Adds the empty scalar that stands where nothing is written. -/
def addEmpty (mark : Mark) : Reader NodeId :=
  add none ⟨implicitTag "", mark, .scalar ""⟩

/-- What stands in front of a node: where it starts, its anchor and its tag. -/
structure Properties where
  start : Option Mark := none
  anchor : Option String := none
  tag : Option String := none

/-- The full text of a tag. -/
def expandTag (start place : Mark) : Option String → String → Reader String
  | none, suffix => return suffix
  | some handle, suffix => do
    match (← get).handles.lookup handle with
    | some expansion => return expansion ++ suffix
    | none => throw (.within .node start (.undefinedHandle handle) place)

/-- The anchor and the tag of a node, in either order. -/
def properties : Reader Properties := do
  let first ← peek
  let start := first.start
  match first.kind with
  | .anchor name =>
    skip
    let second ← peek
    match second.kind with
    | .tag handle suffix =>
      skip
      return ⟨start, name, ← expandTag start second.start handle suffix⟩
    | _ => return ⟨start, name, none⟩
  | .tag handle suffix =>
    skip
    let second ← peek
    match second.kind with
    | .anchor name =>
      skip
      return ⟨start, name, ← expandTag start start handle suffix⟩
    | _ => return ⟨start, none, ← expandTag start start handle suffix⟩
  | _ => return {}

/-- The tag of a scalar.  A scalar without one, or with the tag of an exclamation mark alone, gets
it from its text if it is plain or so tagged. -/
def scalarTag (tag : Option String) (plain : Bool) (text : String) : String :=
  match tag with
  | none => if plain then implicitTag text else textTag
  | some tag => if tag == "!" then implicitTag text else tag

/-- The tag of a collection. -/
def collectionTag (tag : Option String) (default : String) : String :=
  match tag with
  | none => default
  | some tag => if tag == "!" then default else tag

mutual

/-- A node.  Block collections are read only where `block` allows it, and a sequence that is not
indented only where `unindented` does. -/
def node (block unindented : Bool) : (limit : Nat) → Reader NodeId
  | 0 => throw (.problem none .unexpectedEnd {})
  | limit + 1 => do
    let first ← peek
    match first.kind with
    | .alias name =>
      skip
      match (← get).anchors.lookup name with
      | some id => return id
      | none => throw (.problem none (.undefinedAlias name) first.start)
    | _ =>
      let p ← properties
      let token ← peek
      let start := p.start.getD token.start
      let sequence := ⟨collectionTag p.tag sequenceTag, start, .sequence []⟩
      let mapping := ⟨collectionTag p.tag mappingTag, start, .mapping []⟩
      match token.kind with
      | .scalar text plain =>
        skip
        add p.anchor ⟨scalarTag p.tag plain text, start, .scalar text⟩
      | .flowSequenceStart =>
        let id ← add p.anchor sequence
        skip
        fill id (.sequence (← flowItems token.start true limit))
        return id
      | .flowMappingStart =>
        let id ← add p.anchor mapping
        skip
        fill id (.mapping (← flowPairs token.start true limit))
        return id
      | kind =>
        if unindented && kind == .blockEntry then
          let id ← add p.anchor sequence
          fill id (.sequence (← unindentedItems limit))
          return id
        else if block && kind == .blockSequenceStart then
          let id ← add p.anchor sequence
          skip
          fill id (.sequence (← blockItems token.start limit))
          return id
        else if block && kind == .blockMappingStart then
          let id ← add p.anchor mapping
          skip
          fill id (.mapping (← blockPairs token.start limit))
          return id
        else if p.start.isSome then
          add p.anchor ⟨scalarTag p.tag true "", start, .scalar ""⟩
        else
          refuse (if block then .blockNode else .flowNode) start (.expectedToken "the node content")

/-- A node, or the empty scalar at `mark` if the next token is one of those that end the place. -/
def nodeUnless (ends : List TokenKind) (block unindented : Bool) (mark : Mark) :
    (limit : Nat) → Reader NodeId
  | 0 => throw (.problem none .unexpectedEnd {})
  | limit + 1 => do
    if ends.contains (← peek).kind then addEmpty mark
    else node block unindented limit

/-- The items of a block sequence. -/
def blockItems (start : Mark) : (limit : Nat) → Reader (List NodeId)
  | 0 => throw (.problem none .unexpectedEnd {})
  | limit + 1 => do
    let token ← peek
    match token.kind with
    | .blockEntry =>
      skip
      let item ← nodeUnless [.blockEntry, .blockEnd] true false token.stop limit
      return item :: (← blockItems start limit)
    | .blockEnd =>
      skip
      return []
    | _ => refuse .blockCollection start (.expectedToken "<block end>")

/-- The items of a sequence that is not indented; it ends where no item follows. -/
def unindentedItems : (limit : Nat) → Reader (List NodeId)
  | 0 => throw (.problem none .unexpectedEnd {})
  | limit + 1 => do
    let token ← peek
    match token.kind with
    | .blockEntry =>
      skip
      let item ← nodeUnless [.blockEntry, .key, .value, .blockEnd] true false token.stop limit
      return item :: (← unindentedItems limit)
    | _ => return []

/-- The value of a pair; `ends` are the tokens in front of which it is empty. -/
def pairValue (ends : List TokenKind) (block : Bool) : (limit : Nat) → Reader NodeId
  | 0 => throw (.problem none .unexpectedEnd {})
  | limit + 1 => do
    let token ← peek
    match token.kind with
    | .value =>
      skip
      nodeUnless ends block block token.stop limit
    | _ => addEmpty token.start

/-- The pairs of a block mapping. -/
def blockPairs (start : Mark) : (limit : Nat) → Reader (List (NodeId × NodeId))
  | 0 => throw (.problem none .unexpectedEnd {})
  | limit + 1 => do
    let token ← peek
    let ends := [TokenKind.key, .value, .blockEnd]
    match token.kind with
    | .key =>
      skip
      let key ← nodeUnless ends true true token.stop limit
      let value ← pairValue ends true limit
      return (key, value) :: (← blockPairs start limit)
    | .blockEnd =>
      skip
      return []
    | _ => refuse .blockMapping start (.expectedToken "<block end>")

/-- The items of a bracketed sequence; before all but the first there is a comma.  A pair among
them is a mapping of its own. -/
def flowItems (start : Mark) (first : Bool) : (limit : Nat) → Reader (List NodeId)
  | 0 => throw (.problem none .unexpectedEnd {})
  | limit + 1 => do
    if (← peek).kind == .flowSequenceEnd then
      skip
      return []
    if !first then
      if (← peek).kind == .flowEntry then skip
      else refuse .flowSequence start (.expectedFlow "',' or ']'")
    let token ← peek
    match token.kind with
    | .flowSequenceEnd =>
      skip
      return []
    | .key =>
      let id ← add none ⟨mappingTag, token.start, .mapping []⟩
      skip
      let key ← nodeUnless [.value, .flowEntry, .flowSequenceEnd] false false token.stop limit
      let value ← pairValue [.flowEntry, .flowSequenceEnd] false limit
      fill id (.mapping [(key, value)])
      return id :: (← flowItems start false limit)
    | _ =>
      let item ← node false false limit
      return item :: (← flowItems start false limit)

/-- The pairs of a bracketed mapping; before all but the first there is a comma.  A node alone is a
key without a value. -/
def flowPairs (start : Mark) (first : Bool) : (limit : Nat) → Reader (List (NodeId × NodeId))
  | 0 => throw (.problem none .unexpectedEnd {})
  | limit + 1 => do
    if (← peek).kind == .flowMappingEnd then
      skip
      return []
    if !first then
      if (← peek).kind == .flowEntry then skip
      else refuse .flowMapping start (.expectedFlow "',' or '\x7d'")
    let token ← peek
    match token.kind with
    | .flowMappingEnd =>
      skip
      return []
    | .key =>
      skip
      let key ← nodeUnless [.value, .flowEntry, .flowMappingEnd] false false token.stop limit
      let value ← pairValue [.flowEntry, .flowMappingEnd] false limit
      return (key, value) :: (← flowPairs start false limit)
    | _ =>
      let key ← node false false limit
      let value ← addEmpty (← peek).start
      return (key, value) :: (← flowPairs start false limit)

end

/-! ## Documents -/

/-- The directives in front of a document, at most `limit` of them: the handles of tags that they
define. -/
def directives (versioned : Bool) (handles : List (String × String)) :
    (limit : Nat) → Reader (List (String × String))
  | 0 => return handles
  | limit + 1 => do
    let token ← peek
    match token.kind with
    | .directive (.version major _) =>
      if versioned then throw (.problem none .duplicateVersion token.start)
      if major != 1 then throw (.problem none .incompatibleVersion token.start)
      skip
      directives true handles limit
    | .directive (.tag handle expansion) =>
      if (handles.lookup handle).isSome then
        throw (.problem none (.duplicateHandle handle) token.start)
      skip
      directives versioned (handles ++ [(handle, expansion)]) limit
    | .directive .other =>
      skip
      directives versioned handles limit
    | _ => return handles

/-- Skips the ends of documents, at most `limit` of them. -/
def skipEnds : (limit : Nat) → Reader Unit
  | 0 => return
  | limit + 1 => do
    if (← peek).kind == .documentEnd then
      skip
      skipEnds limit

/-- The start of a document with a separator in front of it: its mark, or `none` at the end of the
text. -/
def documentStart (limit : Nat) : Reader (Option Mark) := do
  skipEnds limit
  let token ← peek
  if token.kind == .streamEnd then return none
  let handles ← directives false [] limit
  modify fun s => { s with handles := handles ++ defaultHandles }
  let separator ← peek
  if separator.kind != .documentStart then
    throw (.problem none (.expectedToken "'<document start>'" separator.kind.label) separator.start)
  skip
  return some token.start

/-- The end of the text behind its only document, which has the given root. -/
def onlyDocument (limit : Nat) (root : NodeId) : Reader (Option NodeId) := do
  match ← documentStart limit with
  | none => return some root
  | some another =>
    let start := ((← get).nodes[root]?.map (·.mark)).getD {}
    throw (.within .singleDocument start .anotherDocument another)

/-- The root of the only document of a text, if there is one. -/
def document (limit : Nat) : Reader (Option NodeId) := do
  match (← peek).kind with
  | .directive _ | .documentStart | .streamEnd =>
    if (← documentStart limit).isNone then return none
    match (← peek).kind with
    | .directive _ | .documentStart | .documentEnd | .streamEnd =>
      onlyDocument limit (← addEmpty (← peek).start)
    | _ => onlyDocument limit (← node true false limit)
  | _ => onlyDocument limit (← node true false limit)

end Reader

/-- The nodes that tokens make up. -/
def NodeGraph.ofTokens (stream : TokenStream) : Except Trouble NodeGraph := do
  let limit := 4 * stream.tokens.length + 8
  let (root, s) ← (Reader.document limit).run { tokens := stream.tokens, trouble := stream.trouble }
  return ⟨s.nodes, root⟩

end Componentry.Yaml
