import Componentry.Text.Printable

/-!
# Quoted text

Two ways to write a text between quotation marks.

* `quoted` uses double quotes.  A quotation mark, a backslash and the controls below U+0020 are
  escaped, and nothing else is.
* `displayed` is meant for messages.  It prefers single quotes, takes double quotes when the text
  holds a single quote and no double one, and escapes whatever is not printable.
-/

namespace Componentry.Text

/-! ## Hexadecimal digits -/

/-- The hexadecimal digits of `n`, in lower case, with zeros in front up to `width` digits. -/
def hexDigits (width n : Nat) : List Char :=
  let digits := Nat.toDigits 16 n
  List.replicate (width - digits.length) '0' ++ digits

/-- The value of a hexadecimal digit of either case. -/
def hexValue? (c : Char) : Option Nat :=
  let n := c.toNat
  if 0x30 ≤ n && n ≤ 0x39 then some (n - 0x30)
  else if 0x41 ≤ n && n ≤ 0x46 then some (n - 0x41 + 10)
  else if 0x61 ≤ n && n ≤ 0x66 then some (n - 0x61 + 10)
  else none

/-- The number that hexadecimal digits denote; other characters count as zeros. -/
def natOfHex (cs : List Char) : Nat :=
  cs.foldl (fun n c => 16 * n + (hexValue? c).getD 0) 0

/-! ## Double quotes -/

/-- One character of a double-quoted text. -/
def quotedChar (c : Char) : List Char :=
  if c = '"' then ['\\', '"']
  else if c = '\\' then ['\\', '\\']
  else if c = '\n' then ['\\', 'n']
  else if c = '\r' then ['\\', 'r']
  else if c = '\t' then ['\\', 't']
  else if c = '\x08' then ['\\', 'b']
  else if c = '\x0c' then ['\\', 'f']
  else if c.toNat < 0x20 then '\\' :: 'u' :: hexDigits 4 c.toNat
  else [c]

/-- A text between double quotes. -/
def quotedChars (cs : List Char) : List Char :=
  '"' :: (cs.flatMap quotedChar ++ ['"'])

/-- A string between double quotes. -/
def quoted (s : String) : String :=
  String.ofList (quotedChars s.toList)

/-! ## Quotes for messages -/

/-- The escape of a character that is not printable, by the size of its code point. -/
def escapedCode (n : Nat) : List Char :=
  if n < 0x100 then '\\' :: 'x' :: hexDigits 2 n
  else if n < 0x10000 then '\\' :: 'u' :: hexDigits 4 n
  else '\\' :: 'U' :: hexDigits 8 n

/-- One character of a text between marks `mark`. -/
def displayedChar (mark : Char) (c : Char) : List Char :=
  if c = mark || c = '\\' then ['\\', c]
  else if c = '\n' then ['\\', 'n']
  else if c = '\r' then ['\\', 'r']
  else if c = '\t' then ['\\', 't']
  else if isPrintable c then [c]
  else escapedCode c.toNat

/-- The quotation mark for a text. -/
def displayMark (cs : List Char) : Char :=
  if cs.contains '\'' && !cs.contains '"' then '"' else '\''

/-- A string between quotes, with everything that is not printable escaped. -/
def displayed (s : String) : String :=
  let cs := s.toList
  let mark := displayMark cs
  String.ofList (mark :: (cs.flatMap (displayedChar mark) ++ [mark]))

/-- One octet of a run of octets between marks `mark`; only ASCII characters that leave a mark are
written as themselves. -/
def displayedOctet (mark : Char) (b : UInt8) : List Char :=
  let n := b.toNat
  let c := Char.ofNat n
  if c = mark || c = '\\' then ['\\', c]
  else if c = '\n' then ['\\', 'n']
  else if c = '\r' then ['\\', 'r']
  else if c = '\t' then ['\\', 't']
  else if 0x20 ≤ n && n < 0x7F then [c]
  else '\\' :: 'x' :: hexDigits 2 n

/-- A run of octets, written like a text with the letter b in front. -/
def displayedOctets (bytes : List UInt8) : String :=
  let mark := displayMark (bytes.map fun b => Char.ofNat b.toNat)
  String.ofList ('b' :: mark :: (bytes.flatMap (displayedOctet mark) ++ [mark]))

end Componentry.Text
