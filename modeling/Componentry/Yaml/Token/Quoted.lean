import Componentry.Yaml.Token
import Componentry.Yaml.Trouble

/-!
# Quoted scalars

A scalar between single quotes holds a quote as two of them; one between double quotes has
escapes.  In both, a line break with the blanks around it folds to a space, and further breaks
stay.
-/

namespace Componentry.Yaml

/-- The character that an escape letter stands for. -/
def escapedChar? : Char → Option Char
  | '0' => some '\x00'
  | 'a' => some '\x07'
  | 'b' => some '\x08'
  | 't' | '\t' => some '\t'
  | 'n' => some '\n'
  | 'v' => some '\x0b'
  | 'f' => some '\x0c'
  | 'r' => some '\r'
  | 'e' => some '\x1b'
  | ' ' => some ' '
  | '"' => some '"'
  | '\\' => some '\\'
  | '/' => some '/'
  | 'N' => some '\u0085'
  | '_' => some '\u00a0'
  | 'L' => some '\u2028'
  | 'P' => some '\u2029'
  | _ => none

/-- The number of hexadecimal digits that follow an escape letter. -/
def escapeWidth? : Char → Option Nat
  | 'x' => some 2
  | 'u' => some 4
  | 'U' => some 8
  | _ => none

/-- The character with a code.  The codes from U+D800 to U+DFFF are halves of characters and stand for
none.  Texts with halves are left out: here each has a private character in its place, which is beyond
ASCII as well. -/
def charOfCode (code : Nat) : Except Fault Char :=
  if 0x7FFFFFFF < code then .error .beyondMachine
  else if 0x10FFFF < code then .error .noCodePoint
  else if 0xD800 ≤ code && code ≤ 0xDFFF then .ok (Char.ofNat (0xF0000 + (code - 0xD800)))
  else .ok (Char.ofNat code)

/-- The line breaks from the cursor on, in at most `limit` lines, with the blanks between them left
out. -/
def readQuotedBreaks (start : Mark) :
    (limit : Nat) → Cursor → Except Trouble (List Char × Cursor)
  | 0, c => .ok ([], c)
  | limit + 1, c =>
    if c.atSeparator then .error (.within .quotedScalar start .unexpectedSeparator c.mark)
    else
      let c := c.skipWhile isSpaceOrTab
      if isBreak c.here then do
        let (lineBreak, c) := c.takeBreak
        let (rest, c) ← readQuotedBreaks start limit c
        return (lineBreak ++ rest, c)
      else .ok ([], c)

/-- What a line break and the breaks behind it come to: one line feed alone is a space, before
others it is nothing. -/
def folded (lineBreak breaks : List Char) : List Char :=
  if lineBreak != ['\n'] then lineBreak ++ breaks
  else if breaks.isEmpty then [' ']
  else breaks

/-- What blanks, or a line break among them, come to. -/
def readQuotedGap (start : Mark) (c : Cursor) : Except Trouble (List Char × Cursor) :=
  let (blanks, c) := c.takeWhile isSpaceOrTab
  if c.here == endMark then .error (.within .quotedScalar start .unexpectedEnd c.mark)
  else if isBreak c.here then do
    let (lineBreak, c) := c.takeBreak
    let (breaks, c) ← readQuotedBreaks start (c.rest.length + 1) c
    return (folded lineBreak breaks, c)
  else .ok (blanks, c)

/-- What an escape stands for; the cursor is behind the backslash. -/
def readEscape (start : Mark) (c : Cursor) : Except Trouble (List Char × Cursor) :=
  match escapedChar? c.here, escapeWidth? c.here with
  | some d, _ => .ok ([d], c.step)
  | none, some width =>
    let c := c.step
    match (List.range width).find? fun k => (Text.hexValue? (c.ahead k)).isNone with
    | some k =>
      .error (.within .doubleQuotedScalar start
        (.expected s!"escape sequence of {width} hexadecimal numbers" (c.ahead k)) c.mark)
    | none => do
      let d ← (charOfCode (Text.natOfHex (c.rest.take width))).mapError .fault
      return ([d], c.advance width)
  | none, none =>
    if isBreak c.here then readQuotedBreaks start (c.rest.length + 1) c.takeBreak.2
    else .error (.within .doubleQuotedScalar start (.unknownEscape c.here) c.mark)

/-- The pieces of a quoted scalar up to the closing quote, at most `limit` of them. -/
def readQuotedPieces (quote : Char) (start : Mark) :
    (limit : Nat) → Cursor → Except Trouble (List Char × Cursor)
  | 0, c => .error (.within .quotedScalar start .unexpectedEnd c.mark)
  | limit + 1, c =>
    if c.here == quote && !(quote == '\'' && c.ahead 1 == '\'') then .ok ([], c.step)
    else do
      let (piece, c) ←
        if c.here == quote then pure ([quote], c.advance 2)
        else if c.here == '\\' && quote == '"' then readEscape start c.step
        else if isWideGap c.here then readQuotedGap start c
        else pure ([c.here], c.step)
      let (rest, c) ← readQuotedPieces quote start limit c
      return (piece ++ rest, c)

/-- A quoted scalar. -/
def readQuoted (c : Cursor) : Except Trouble (TokenKind × Cursor) := do
  let (chars, next) ← readQuotedPieces c.here c.mark (c.rest.length + 1) c.step
  return (.scalar (String.ofList chars) false, next)

end Componentry.Yaml
