import Componentry.Document.Record

/-!
# The words of a TOML text

Spaces, comments, strings and keys.  Every reader takes the text from where it is and gives what it
read and the text behind it.
-/

namespace Componentry.Toml

/-- Why reading stops: a problem in front of the rest of the text, or a fault. -/
inductive Stop where
  | problem (what : Problem) (rest : List Char)
  | fault (f : Fault)

/-- Whether `c` is a space or a tab. -/
def isSpace (c : Char) : Bool :=
  c == ' ' || c == '\t'

/-- Whether `c` is a space, a tab or a line feed. -/
def isSpaceOrBreak (c : Char) : Bool :=
  isSpace c || c == '\n'

/-- Whether `c` is a control character other than the tab. -/
def isControl (c : Char) : Bool :=
  (c.toNat < 0x20 && c != '\t') || c.toNat == 0x7F

/-- Whether `c` is a control character other than the tab and the line feed. -/
def isControlInBlock (c : Char) : Bool :=
  isControl c && c != '\n'

/-- The text behind spaces and tabs. -/
def skipSpace (cs : List Char) : List Char :=
  cs.dropWhile isSpace

/-- The text in front of the first occurrence of `mark`, and the text from there on. -/
def splitAt? (mark : List Char) : List Char → Option (List Char × List Char)
  | [] => if mark.isEmpty then some ([], []) else none
  | c :: cs =>
    if mark.isPrefixOf (c :: cs) then some ([], c :: cs)
    else (splitAt? mark cs).map fun (before, rest) => (c :: before, rest)

/-- The text from the first character on for which `p` holds, if one of the first `n` does. -/
def findFrom? (p : Char → Bool) (n : Nat) (cs : List Char) : Option (List Char) :=
  if (cs.take n).any p then some (cs.dropWhile (!p ·)) else none

/-- Complains about a character among the first `n` for which `p` holds. -/
def refuse (p : Char → Bool) (n : Nat) (cs : List Char) : Except Stop Unit :=
  match findFrom? p n cs with
  | some rest => .error (.problem (.invalidCharacter (rest.headD ' ')) rest)
  | none => .ok ()

/-- The text behind a comment, if there is one. -/
def skipComment : List Char → Except Stop (List Char)
  | '#' :: cs => do
    let line := cs.takeWhile (· != '\n')
    refuse isControl line.length cs
    return cs.drop line.length
  | cs => .ok cs

/-- The text behind spaces, line feeds and comments, at most `limit` of them. -/
def skipBlank : (limit : Nat) → List Char → Except Stop (List Char)
  | 0, cs => .ok cs
  | limit + 1, cs => do
    let next ← skipComment (cs.dropWhile isSpaceOrBreak)
    if next.length == cs.length then return next else skipBlank limit next

/-! ## Strings -/

/-- A string between single marks in which nothing is escaped; `cs` is the text behind the opening
mark. -/
def literal (mark : List Char) (isIllegal : Char → Bool) (cs : List Char) :
    Except Stop (List Char × List Char) :=
  match splitAt? mark cs with
  | none => .error (.problem (.expected (String.ofList mark)) [])
  | some (body, rest) => do
    refuse isIllegal body.length cs
    return (body, rest.drop mark.length)

/-- The character that an escape letter stands for. -/
def escapedChar? : Char → Option Char
  | 'b' => some '\x08'
  | 't' => some '\t'
  | 'n' => some '\n'
  | 'f' => some '\x0c'
  | 'r' => some '\r'
  | '"' => some '"'
  | '\\' => some '\\'
  | _ => none

/-- The character whose number has `width` hexadecimal digits here. -/
def hexChar (width : Nat) (cs : List Char) : Except Stop (List Char × List Char) :=
  let digits := cs.take width
  if digits.length != width || digits.any fun c => (Text.hexValue? c).isNone then
    .error (.problem .badHex cs)
  else
    let code := Text.natOfHex digits
    let rest := cs.drop width
    if code < 0xD800 || (0xDFFF < code && code ≤ 0x10FFFF) then .ok ([Char.ofNat code], rest)
    else .error (.problem .noScalarValue rest)

/-- What an escape stands for; `cs` is the text behind the backslash.  In a string over several
lines, a backslash at the end of a line takes out all blanks up to the next character. -/
def escape (multiline : Bool) (cs : List Char) : Except Stop (List Char × List Char) :=
  match cs with
  | [] => .error (.problem .badEscape [])
  | c :: rest =>
    if multiline && c == '\n' then .ok ([], rest.dropWhile isSpaceOrBreak)
    else if multiline && isSpace c then
      match skipSpace rest with
      | [] => .ok ([], [])
      | '\n' :: more => .ok ([], more.dropWhile isSpaceOrBreak)
      | more => .error (.problem .badEscape more)
    else if c == 'u' then hexChar 4 rest
    else if c == 'U' then hexChar 8 rest
    else
      match escapedChar? c with
      | some d => .ok ([d], rest)
      | none => .error (.problem .badEscape rest)

/-- The rest of a string between double quotes, in at most `limit` characters and escapes. -/
def basicFrom (multiline : Bool) :
    (limit : Nat) → List Char → Except Stop (List Char × List Char)
  | 0, cs => .error (.problem .unterminated cs)
  | limit + 1, cs => do
    match cs with
    | [] => throw (.problem .unterminated [])
    | c :: rest =>
      if c == '"' && !multiline then return ([], rest)
      else if c == '"' && ['"', '"', '"'].isPrefixOf cs then return ([], cs.drop 3)
      else if c == '\\' then
        let (piece, rest) ← escape multiline rest
        let (more, rest) ← basicFrom multiline limit rest
        return (piece ++ more, rest)
      else if c != '"' && (if multiline then isControlInBlock c else isControl c) then
        throw (.problem (.illegal c) cs)
      else
        let (more, rest) ← basicFrom multiline limit rest
        return (c :: more, rest)

/-- A string between double quotes on one line; `cs` is the text behind the opening quote. -/
def basic (cs : List Char) : Except Stop (List Char × List Char) :=
  basicFrom false (cs.length + 1) cs

/-- Up to two further marks at the end of a string over several lines belong to it. -/
def withExtraMarks (mark : Char) (body rest : List Char) : List Char × List Char :=
  let extra := (rest.take 2).takeWhile (· == mark)
  (body ++ extra, rest.drop extra.length)

/-- A string over several lines; `cs` is the text behind the opening marks.  A line feed right at
the start is left out. -/
def multiline (mark : Char) (cs : List Char) : Except Stop (List Char × List Char) := do
  let cs := if cs.head? == some '\n' then cs.drop 1 else cs
  let (body, rest) ←
    if mark == '"' then basicFrom true (cs.length + 1) cs
    else literal [mark, mark, mark] isControlInBlock cs
  return withExtraMarks mark body rest

/-- A string in any of its forms, the quote `mark` being the first character of `cs`. -/
def string (mark : Char) (cs : List Char) : Except Stop (List Char × List Char) :=
  if [mark, mark, mark].isPrefixOf cs then multiline mark (cs.drop 3)
  else if mark == '"' then basic (cs.drop 1)
  else literal [mark] isControl (cs.drop 1)

/-! ## Keys -/

/-- Whether `c` may stand in a name without quotes. -/
def isBare (c : Char) : Bool :=
  c.isAlphanum || c == '-' || c == '_'

/-- One name of a key. -/
def keyPart (cs : List Char) : Except Stop (String × List Char) := do
  match cs with
  | [] => throw (.problem .invalidKey [])
  | c :: rest =>
    if isBare c then
      let name := cs.takeWhile isBare
      return (String.ofList name, cs.drop name.length)
    else if c == '\'' then
      let (name, rest) ← literal ['\''] isControl rest
      return (String.ofList name, rest)
    else if c == '"' then
      let (name, rest) ← basic rest
      return (String.ofList name, rest)
    else throw (.problem .invalidKey cs)

/-- The names of a key from here on, at most `limit` of them. -/
def keyFrom : (limit : Nat) → List Char → Except Stop (Key × List Char)
  | 0, cs => .ok ([], cs)
  | limit + 1, cs => do
    let (name, rest) ← keyPart cs
    let rest := skipSpace rest
    match rest with
    | '.' :: more =>
      let (names, rest) ← keyFrom limit (skipSpace more)
      return (name :: names, rest)
    | _ => return ([name], rest)

/-- A key. -/
def key (cs : List Char) : Except Stop (Key × List Char) :=
  keyFrom (cs.length + 1) cs

end Componentry.Toml
