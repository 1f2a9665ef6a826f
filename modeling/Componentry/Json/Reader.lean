import Componentry.Decimal.Numeral
import Componentry.Document.Record

/-!
# Reading JSON

A JSON text is read into a tree.  Of several values under one name the last one counts.  The
numbers that are no numbers have names.

## Termination

Values contain values, so every reader has a limit on the depth of calls.  Each call reads at least
one character, and so the length of the text is enough.
-/

namespace Componentry.Json

/-- Why reading stops: a problem in front of the rest of the text, or a fault. -/
inductive Stop where
  | problem (what : Problem) (rest : List Char)
  | fault (f : Fault)

/-- Whether `c` may stand between the parts of a text. -/
def isSpace (c : Char) : Bool :=
  c == ' ' || c == '\t' || c == '\n' || c == '\r'

/-- The text behind spaces. -/
def skipSpace (cs : List Char) : List Char :=
  cs.dropWhile isSpace

/-! ## Strings -/

/-- The character that an escape letter stands for. -/
def escapedChar? : Char → Option Char
  | '"' => some '"'
  | '\\' => some '\\'
  | '/' => some '/'
  | 'b' => some '\x08'
  | 'f' => some '\x0c'
  | 'n' => some '\n'
  | 'r' => some '\r'
  | 't' => some '\t'
  | _ => none

/-- The number that four hexadecimal digits denote. -/
def hex4? (cs : List Char) : Option Nat :=
  let digits := cs.take 4
  if digits.length == 4 && digits.all fun c => (Text.hexValue? c).isSome then
    some (Text.natOfHex digits)
  else none

/-- The character of an escape by number, of which `cs` starts with the digits; `mark` is the text
from the letter on.  Two halves of a character beyond the basic plane are put together.  Texts with a
single half are left out: here the null character is in its place, and a path with it leads nowhere,
as it does with a half. -/
def unicodeEscape (mark cs : List Char) : Except Stop (Char × List Char) :=
  if cs.length ≤ 4 then .error (.problem .badUnicodeEscape mark)
  else
    match hex4? cs with
    | none => .error (.problem .badUnicodeEscape mark)
    | some code =>
      let rest := cs.drop 4
      let alone := (Char.ofNat code, rest)
      if 0xD800 ≤ code && code ≤ 0xDBFF && 6 < rest.length then
        match rest with
        | '\\' :: 'u' :: digits =>
          match hex4? digits with
          | none => .error (.problem .badUnicodeEscape ('u' :: digits))
          | some low =>
            if 0xDC00 ≤ low && low ≤ 0xDFFF then
              .ok (Char.ofNat (0x10000 + (code - 0xD800) * 1024 + (low - 0xDC00)), digits.drop 4)
            else .ok alone
        | _ => .ok alone
      else .ok alone

/-- The rest of a string, in at most `limit` characters and escapes; `start` is the text from the
opening quote on. -/
def stringFrom (start : List Char) : (limit : Nat) → List Char → Except Stop (List Char × List Char)
  | 0, _ => .error (.problem .unterminated start)
  | limit + 1, cs => do
    match cs with
    | [] => throw (.problem .unterminated start)
    | '"' :: rest => return ([], rest)
    | '\\' :: rest =>
      let (c, rest) ←
        match rest with
        | [] => throw (.problem .unterminated start)
        | 'u' :: digits => unicodeEscape rest digits
        | letter :: more =>
          match escapedChar? letter with
          | some c => pure (c, more)
          | none => throw (.problem .badEscape cs)
      let (more, rest) ← stringFrom start limit rest
      return (c :: more, rest)
    | c :: rest =>
      if c.toNat ≤ 0x1F then throw (.problem .controlCharacter cs)
      else
        let (more, rest) ← stringFrom start limit rest
        return (c :: more, rest)

/-- A string; `cs` is the text behind the opening quote. -/
def string (start cs : List Char) : Except Stop (String × List Char) := do
  let (chars, rest) ← stringFrom start (cs.length + 1) cs
  return (String.ofList chars, rest)

/-! ## Numbers -/

/-- The fraction at the start of a text, if there is one. -/
def takeFraction : List Char → List Char × List Char
  | '.' :: cs =>
    let digits := cs.takeWhile Char.isDigit
    if digits.isEmpty then ([], '.' :: cs) else ('.' :: digits, cs.drop digits.length)
  | cs => ([], cs)

/-- The exponent at the start of a text, if there is one. -/
def takeExponent : List Char → List Char × List Char
  | [] => ([], [])
  | c :: cs =>
    if c == 'e' || c == 'E' then
      let sign := (cs.take 1).filter fun d => d == '-' || d == '+'
      let digits := (cs.drop sign.length).takeWhile Char.isDigit
      if digits.isEmpty then ([], c :: cs)
      else (c :: sign ++ digits, cs.drop (sign.length + digits.length))
    else ([], c :: cs)

/-- The digits of a whole number at the start of a text; a zero stands alone. -/
def takeWhole : List Char → List Char
  | '0' :: _ => ['0']
  | cs => cs.takeWhile Char.isDigit

/-- A number. -/
def number (cs : List Char) : Except Stop (Tree × List Char) := do
  let (sign, unsigned) :=
    match cs with
    | '-' :: rest => (['-'], rest)
    | _ => ([], cs)
  let whole := takeWhole unsigned
  if whole.isEmpty then throw (.problem .valueExpected cs)
  let (fraction, rest) := takeFraction (unsigned.drop whole.length)
  let (exponent, rest) := takeExponent rest
  if fraction.isEmpty && exponent.isEmpty then
    let n ← (Numeral.integer 10 (sign ++ whole)).mapError .fault
    return (.scalar (.int n), rest)
  else
    let x ← (Numeral.float (sign ++ whole ++ fraction ++ exponent)).mapError .fault
    return (.scalar (.float x), rest)

/-! ## Values -/

/-- The values with names. -/
def names : List (String × Scalar) :=
  [("null", .null), ("true", .bool true), ("false", .bool false), ("NaN", .float .nan),
   ("Infinity", .float (.infinity false)), ("-Infinity", .float (.infinity true))]

/-- A value by name, or a number. -/
def plain (cs : List Char) : Except Stop (Tree × List Char) :=
  match names.find? fun (name, _) => name.toList.isPrefixOf cs with
  | some (name, value) => .ok (.scalar value, cs.drop name.length)
  | none => number cs

mutual

/-- A value. -/
def value : (limit : Nat) → List Char → Except Stop (Tree × List Char)
  | 0, cs => .error (.problem .valueExpected cs)
  | limit + 1, cs => do
    match cs with
    | [] => throw (.problem .valueExpected cs)
    | '"' :: rest =>
      let (s, rest) ← string cs rest
      return (.scalar (.text s), rest)
    | '\x7b' :: rest =>
      let rest := skipSpace rest
      match rest with
      | '\x7d' :: rest => return (.map [], rest)
      | _ =>
        let (entries, rest) ← members limit [] rest
        return (.map entries, rest)
    | '[' :: rest =>
      let rest := skipSpace rest
      match rest with
      | ']' :: rest => return (.list [], rest)
      | _ =>
        let (items, rest) ← elements limit rest
        return (.list items, rest)
    | _ => plain cs

/-- The entries of an object, the next of which starts here; `done` are those in front. -/
def members : (limit : Nat) → (done : List (Tree × Tree)) → List Char →
    Except Stop (List (Tree × Tree) × List Char)
  | 0, _, cs => .error (.problem .nameExpected cs)
  | limit + 1, done, cs => do
    match cs with
    | '"' :: rest =>
      let (name, rest) ← string cs rest
      let rest := skipSpace rest
      match rest with
      | ':' :: rest =>
        let (v, rest) ← value limit (skipSpace rest)
        let done := Tree.assign done name v
        let rest := skipSpace rest
        match rest with
        | '\x7d' :: rest => return (done, rest)
        | ',' :: rest => members limit done (skipSpace rest)
        | _ => throw (.problem .commaExpected rest)
      | _ => throw (.problem .colonExpected rest)
    | _ => throw (.problem .nameExpected cs)

/-- The items of an array, the next of which starts here. -/
def elements : (limit : Nat) → List Char → Except Stop (List Tree × List Char)
  | 0, cs => .error (.problem .valueExpected cs)
  | limit + 1, cs => do
    let (v, rest) ← value limit cs
    let rest := skipSpace rest
    match rest with
    | ']' :: rest => return ([v], rest)
    | ',' :: rest =>
      let (more, rest) ← elements limit (skipSpace rest)
      return (v :: more, rest)
    | _ => throw (.problem .commaExpected rest)

end

/-- The whole of a text as one value. -/
def document (cs : List Char) : Except Stop Tree := do
  if cs.head? == some '\ufeff' then throw (.problem .byteOrderMark cs)
  let (v, rest) ← value (cs.length + 1) (skipSpace cs)
  let rest := skipSpace rest
  if rest.isEmpty then return v else throw (.problem .extraData rest)

/-- The fault that a stop comes to. -/
def Stop.toFault (text : List Char) : Stop → Fault
  | .problem what rest => .badJson ⟨what, .before text rest⟩
  | .fault f => f

/-- The value that a text spells. -/
def parse (text : List Char) : Except Fault Tree :=
  (document text).mapError (·.toFault text)

end Componentry.Json
