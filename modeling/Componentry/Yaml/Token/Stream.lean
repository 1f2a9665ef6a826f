import Componentry.Yaml.Token.Block
import Componentry.Yaml.Token.Plain

/-!
# The tokens of a text

A `Lexer` walks over a text and queues tokens.  Indentation opens and closes block collections, so
some tokens stand for no character.

A scalar, an anchor, a tag or a bracket may turn out to be a key when a colon follows it on the
same line within `keyReach` characters.  Until that is known it is a *pending key*, one at most for
each level of brackets.  When the colon comes, a key token is put in front of it, and tokens from
there on are held back as long as the key is pending.

`TokenStream.ofText` gives the tokens in order, and the trouble that ends them if there is one.
Trouble comes after all tokens that were certain when it was met.
-/

namespace Componentry.Yaml

/-- The tokens of a text, and the trouble behind the last of them. -/
structure TokenStream where
  tokens : List Token
  trouble : Option Trouble := none
  deriving Repr

/-- The tokens after a step, which may meet with trouble. -/
def TokenStream.after {α : Type} (step : Except Trouble α) (rest : α → TokenStream) : TokenStream :=
  match step with
  | .ok a => rest a
  | .error trouble => ⟨[], some trouble⟩

/-- A token that may turn out to be the start of a key: its number, whether it must be one, and
its place. -/
structure PendingKey where
  number : Nat
  required : Bool
  mark : Mark
  deriving Repr

/-- The most characters between the start of a key and its colon. -/
def keyReach : Nat := 1024

/-- The state of a walk over a text. -/
structure Lexer where
  cursor : Cursor
  /-- The tokens that are not given out yet. -/
  queue : List Token := []
  /-- The number of tokens given out. -/
  given : Nat := 0
  /-- The columns of the open block collections, the innermost first. -/
  indents : List Nat := []
  /-- The pending keys by level of brackets, the innermost first; the last one is outside all
  brackets. -/
  keys : List (Option PendingKey) := [none]
  /-- Whether a key may start here. -/
  keyAllowed : Bool := true
  finished : Bool := false
  deriving Repr

namespace Lexer

/-! ## State -/

/-- Whether the cursor is inside brackets. -/
def inFlow (l : Lexer) : Bool :=
  1 < l.keys.length

/-- The lexer with one more token. -/
def push (l : Lexer) (kind : TokenKind) (start stop : Mark) : Lexer :=
  { l with queue := l.queue ++ [⟨kind, start, stop⟩] }

/-- The lexer with one more token that stands for no character. -/
def pushMark (l : Lexer) (kind : TokenKind) (mark : Mark) : Lexer :=
  l.push kind mark mark

/-- The lexer behind a token of `n` characters. -/
def pushWide (l : Lexer) (kind : TokenKind) (n : Nat) : Lexer :=
  let next := l.cursor.advance n
  { l.push kind l.cursor.mark next.mark with cursor := next }

/-- The lexer with a token in front of the one with the given number. -/
def insertAt (l : Lexer) (number : Nat) (token : Token) : Lexer :=
  let k := number - l.given
  { l with queue := l.queue.take k ++ token :: l.queue.drop k }

/-- The complaint about a key without a colon. -/
def missingColon (l : Lexer) (key : PendingKey) : Trouble :=
  .within .simpleKey key.mark .missingColon l.cursor.mark

/-- Whether a pending key is too far away to be a key. -/
def isStale (l : Lexer) (key : PendingKey) : Bool :=
  key.mark.line != l.cursor.mark.line || keyReach < l.cursor.mark.index - key.mark.index

/-- Gives up the pending keys that are too far away. -/
def dropStale (l : Lexer) : Except Trouble Lexer :=
  match l.keys.findSome? fun key => key.filter fun k => l.isStale k && k.required with
  | some key => .error (l.missingColon key)
  | none => .ok { l with keys := l.keys.map fun key => key.filter (!l.isStale ·) }

/-- The lexer with another pending key at the innermost level. -/
def setKey (l : Lexer) (key : Option PendingKey) : Lexer :=
  { l with keys := key :: l.keys.drop 1 }

/-- Gives up the pending key of the innermost level. -/
def dropKey (l : Lexer) : Except Trouble Lexer :=
  match l.keys.head?.join with
  | some key => if key.required then .error (l.missingColon key) else .ok (l.setKey none)
  | none => .ok l

/-- Makes the next token a pending key, where keys are allowed. -/
def saveKey (l : Lexer) : Except Trouble Lexer :=
  if l.keyAllowed then do
    let number := l.given + l.queue.length
    let required := !l.inFlow && l.indents.head? == some l.cursor.mark.column
    return (← l.dropKey).setKey (some ⟨number, required, l.cursor.mark⟩)
  else .ok l

/-- Closes the block collections that start beyond a column; all of them for `none`. -/
def closeBlocks (l : Lexer) (column : Option Nat) : Lexer :=
  if l.inFlow then l
  else
    let beyond (indent : Nat) : Bool := column.all (· < indent)
    let mark := l.cursor.mark
    let closed := l.indents.takeWhile beyond
    { l with
      indents := l.indents.dropWhile beyond
      queue := l.queue ++ closed.map fun _ => ⟨.blockEnd, mark, mark⟩ }

/-- Whether a block collection at a column is further in than all open ones. -/
def isDeeper (l : Lexer) (column : Nat) : Bool :=
  l.indents.head?.all (· < column)

/-- Opens a block collection at the cursor, if it is further in than all open ones. -/
def openBlock (l : Lexer) (kind : TokenKind) : Lexer :=
  let column := l.cursor.mark.column
  if l.isDeeper column then
    { l.pushMark kind l.cursor.mark with indents := column :: l.indents }
  else l

/-! ## Tokens -/

/-- Skips blanks, comments and line breaks, at most `limit` lines.  Outside brackets a key may
start on a new line. -/
def skipGap : (limit : Nat) → Lexer → Lexer
  | 0, l => l
  | limit + 1, l =>
    let c := l.cursor.skipWhile (· == ' ')
    let c := if c.here == '#' then c.skipWhile (!isBreakOrEnd ·) else c
    if isBreak c.here then
      skipGap limit { l with cursor := c.takeBreak.2, keyAllowed := l.keyAllowed || !l.inFlow }
    else { l with cursor := c }

/-- Skips a byte order mark at the start of the text, blanks, comments and line breaks. -/
def skipToToken (l : Lexer) : Lexer :=
  let c := l.cursor
  let c := if c.mark.index == 0 && c.here == '\ufeff' then c.step else c
  skipGap (c.rest.length + 1) { l with cursor := c }

/-- Closes everything at the end of the text or of a document. -/
def closeAll (l : Lexer) : Except Trouble Lexer := do
  let l ← (l.closeBlocks none).dropKey
  return { l with keyAllowed := false }

/-- The end of the text. -/
def readEnd (l : Lexer) : Except Trouble Lexer := do
  let l ← l.closeAll
  return { l.pushMark .streamEnd l.cursor.mark with keys := [none], finished := true }

/-- A directive. -/
def readDirectiveLine (l : Lexer) : Except Trouble Lexer := do
  let l ← l.closeAll
  let (directive, stop, next) ← readDirective l.cursor
  return { l.push (.directive directive) l.cursor.mark stop with cursor := next }

/-- A document separator. -/
def readSeparator (l : Lexer) (kind : TokenKind) : Except Trouble Lexer := do
  return (← l.closeAll).pushWide kind 3

/-- An opening bracket. -/
def readOpening (l : Lexer) (kind : TokenKind) : Except Trouble Lexer := do
  let l ← l.saveKey
  return { l.pushWide kind 1 with keys := none :: l.keys, keyAllowed := true }

/-- A closing bracket. -/
def readClosing (l : Lexer) (kind : TokenKind) : Except Trouble Lexer := do
  let l ← l.dropKey
  let keys := if l.inFlow then l.keys.drop 1 else l.keys
  return { l.pushWide kind 1 with keys, keyAllowed := false }

/-- A comma between the parts of a bracketed collection. -/
def readComma (l : Lexer) : Except Trouble Lexer := do
  let l ← l.dropKey
  return { l.pushWide .flowEntry 1 with keyAllowed := true }

/-- Opens a block collection where one may start, and complains elsewhere. -/
def openBlockHere (l : Lexer) (kind : TokenKind) (complaint : Problem) : Except Trouble Lexer :=
  if l.inFlow then .ok l
  else if l.keyAllowed then .ok (l.openBlock kind)
  else .error (.problem none complaint l.cursor.mark)

/-- The dash of a sequence. -/
def readDash (l : Lexer) : Except Trouble Lexer := do
  let l ← (← l.openBlockHere .blockSequenceStart .entryNotAllowed).dropKey
  return { l.pushWide .blockEntry 1 with keyAllowed := true }

/-- The question mark of a key. -/
def readQuestion (l : Lexer) : Except Trouble Lexer := do
  let l ← (← l.openBlockHere .blockMappingStart .keyNotAllowed).dropKey
  return { l.pushWide .key 1 with keyAllowed := !l.inFlow }

/-- The colon behind a pending key: the key gets its token, and outside brackets the mapping is
opened in front of it. -/
def confirmKey (l : Lexer) (key : PendingKey) : Lexer :=
  let l := { l.setKey none with keyAllowed := false }
  let l := l.insertAt key.number ⟨.key, key.mark, key.mark⟩
  if !l.inFlow && l.isDeeper key.mark.column then
    let l := l.insertAt key.number ⟨.blockMappingStart, key.mark, key.mark⟩
    { l with indents := key.mark.column :: l.indents }
  else l

/-- The colon of a value. -/
def readColon (l : Lexer) : Except Trouble Lexer := do
  match l.keys.head?.join with
  | some key => return (l.confirmKey key).pushWide .value 1
  | none =>
    let l ← l.openBlockHere .blockMappingStart .valueNotAllowed
    return { l with keyAllowed := !l.inFlow }.pushWide .value 1

/-- A token that may be a key, read by `read`. -/
def readKeyable (l : Lexer) (read : Cursor → Except Trouble (TokenKind × Cursor)) :
    Except Trouble Lexer := do
  let l ← l.saveKey
  let (kind, next) ← read l.cursor
  return { l.push kind l.cursor.mark next.mark with cursor := next, keyAllowed := false }

/-- A block scalar. -/
def readBlockScalar (l : Lexer) (folding : Bool) : Except Trouble Lexer := do
  let l ← l.dropKey
  let (kind, stop, next) ← readBlock folding l.indents.head? l.cursor
  return { l.push kind l.cursor.mark stop with cursor := next, keyAllowed := true }

/-- A plain scalar. -/
def readPlainScalar (l : Lexer) : Except Trouble Lexer := do
  let l ← l.saveKey
  let (kind, stop, next, broken) := readPlain l.inFlow l.indents.head? l.cursor
  return { l.push kind l.cursor.mark stop with cursor := next, keyAllowed := broken }

/-- Whether a plain scalar may start at the cursor. -/
def atPlain (l : Lexer) : Bool :=
  let c := l.cursor.here
  !(isWideGap c || "-?:,[]\x7b\x7d#&*!|>'\"%@`".toList.contains c) ||
    (!isWideGap (l.cursor.ahead 1) && (c == '-' || (!l.inFlow && (c == '?' || c == ':'))))

/-- Reads the next token, and those that come in front of it. -/
def fetch (l : Lexer) : Except Trouble Lexer := do
  let l ← l.skipToToken.dropStale
  let l := l.closeBlocks (some l.cursor.mark.column)
  let c := l.cursor
  let atLineStart := c.mark.column == 0
  let beforeGap := isWideGap (c.ahead 1)
  match c.here with
  | '\x00' => l.readEnd
  | '[' => l.readOpening .flowSequenceStart
  | '\x7b' => l.readOpening .flowMappingStart
  | ']' => l.readClosing .flowSequenceEnd
  | '\x7d' => l.readClosing .flowMappingEnd
  | ',' => l.readComma
  | '*' => l.readKeyable fun c => do
      let (name, next) ← readAnchor .alias c
      return (.alias name, next)
  | '&' => l.readKeyable fun c => do
      let (name, next) ← readAnchor .anchor c
      return (.anchor name, next)
  | '!' => l.readKeyable readTag
  | '\'' | '"' => l.readKeyable readQuoted
  | d =>
    if d == '%' && atLineStart then l.readDirectiveLine
    else if atLineStart && c.atTriple '-' then l.readSeparator .documentStart
    else if atLineStart && c.atTriple '.' then l.readSeparator .documentEnd
    else if d == '-' && beforeGap then l.readDash
    else if d == '?' && (l.inFlow || beforeGap) then l.readQuestion
    else if d == ':' && (l.inFlow || beforeGap) then l.readColon
    else if (d == '|' || d == '>') && !l.inFlow then l.readBlockScalar (d == '>')
    else if l.atPlain then l.readPlainScalar
    else throw (.problem (some (.nextToken, none)) (.cannotStart d) c.mark)

/-- The number of tokens in the queue that no pending key holds back. -/
def ready (l : Lexer) : Nat :=
  l.keys.foldl (fun n key => (key.map fun k => min n (k.number - l.given)).getD n) l.queue.length

/-- The tokens from here on, after at most `limit` more are read. -/
def run : (limit : Nat) → Lexer → TokenStream
  | 0, l => ⟨l.queue, none⟩
  | limit + 1, l =>
    .after l.fetch fun l =>
      if l.finished then ⟨l.queue, none⟩
      else
        .after l.dropStale fun l =>
          let n := l.ready
          let rest := run limit { l with queue := l.queue.drop n, given := l.given + n }
          ⟨l.queue.take n ++ rest.tokens, rest.trouble⟩

end Lexer

/-- The tokens of a text.  A text with a character that no text may contain has none. -/
def TokenStream.ofText (text : List Char) : TokenStream :=
  match text.findIdx? (!isAcceptable ·) with
  | some k => ⟨[], some (.unacceptable (text.getD k endMark) k)⟩
  | none => Lexer.run (text.length + 2) { cursor := { rest := text } }

end Componentry.Yaml
