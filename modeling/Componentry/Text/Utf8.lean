import Componentry.Text.Quoted

/-!
# Texts as octets

The octets of a file are a text in UTF-8.  A `Decoder` reads them one by one.  Between the octets
of a character it knows how many are still to come and the range of the next one, so a form that is
too long, a surrogate or a code point beyond the last one is refused at the first octet that rules
it out.

A `Defect` says what is wrong with octets that are no text, and where.
-/

namespace Componentry.Text

/-- What can be wrong with octets that are no text. -/
inductive DefectKind where
  /-- No character starts with this octet. -/
  | badStart
  /-- An octet cannot go on with the character that was started. -/
  | badContinuation
  /-- The octets end within a character. -/
  | cutShort
  deriving DecidableEq, Repr

/-- The text of a sort of defect. -/
def DefectKind.reason : DefectKind → String
  | .badStart => "invalid start byte"
  | .badContinuation => "invalid continuation byte"
  | .cutShort => "unexpected end of data"

/-- What is wrong with octets that are no text: the first octet of the character that cannot be
read, its position, and the number of octets that belong to it. -/
structure Defect where
  kind : DefectKind
  octet : UInt8
  start : Nat
  size : Nat
  deriving DecidableEq, Repr

/-- The text of a defect. -/
def Defect.message (d : Defect) : String :=
  if d.size == 1 then
    "'utf-8' codec can't decode byte 0x" ++ String.ofList (hexDigits 2 d.octet.toNat) ++
      s!" in position {d.start}: " ++ d.kind.reason
  else
    s!"'utf-8' codec can't decode bytes in position {d.start}-{d.start + d.size - 1}: " ++
      d.kind.reason

/-- A character of which some octets are read: where it started and with which octet, its code so
far, the number of octets to come, and the least and the greatest octet that may come next. -/
structure OpenChar where
  start : Nat
  first : UInt8
  code : Nat
  owed : Nat
  low : Nat
  high : Nat
  deriving Repr

/-- What the first octet of a character says about the rest: the bits of the code it holds, the
number of octets to come, and the range of the next one. -/
def leadOctet? (b : Nat) : Option (Nat × Nat × Nat × Nat) :=
  if 0xC2 ≤ b && b ≤ 0xDF then some (b - 0xC0, 1, 0x80, 0xBF)
  else if b == 0xE0 then some (b - 0xE0, 2, 0xA0, 0xBF)
  else if b == 0xED then some (b - 0xE0, 2, 0x80, 0x9F)
  else if 0xE1 ≤ b && b ≤ 0xEF then some (b - 0xE0, 2, 0x80, 0xBF)
  else if b == 0xF0 then some (b - 0xF0, 3, 0x90, 0xBF)
  else if 0xF1 ≤ b && b ≤ 0xF3 then some (b - 0xF0, 3, 0x80, 0xBF)
  else if b == 0xF4 then some (b - 0xF0, 3, 0x80, 0x8F)
  else none

/-- Reads octets from position `pos` on, perhaps within a character.  The characters that are read
are in `done`, the last one first. -/
def decodeFrom (pos : Nat) (pending : Option OpenChar) (done : List Char) :
    List UInt8 → Except Defect (List Char)
  | [] =>
    match pending with
    | none => .ok done.reverse
    | some c => .error ⟨.cutShort, c.first, c.start, pos - c.start⟩
  | octet :: rest =>
    let b := octet.toNat
    match pending with
    | none =>
      if b < 0x80 then decodeFrom (pos + 1) none (Char.ofNat b :: done) rest
      else
        match leadOctet? b with
        | none => .error ⟨.badStart, octet, pos, 1⟩
        | some (code, owed, low, high) =>
          decodeFrom (pos + 1) (some ⟨pos, octet, code, owed, low, high⟩) done rest
    | some c =>
      if b < c.low || c.high < b then .error ⟨.badContinuation, c.first, c.start, pos - c.start⟩
      else
        let code := 64 * c.code + (b - 0x80)
        if c.owed ≤ 1 then decodeFrom (pos + 1) none (Char.ofNat code :: done) rest
        else
          decodeFrom (pos + 1)
            (some { c with code := code, owed := c.owed - 1, low := 0x80, high := 0xBF }) done rest

/-- The text that octets spell. -/
def decode (octets : List UInt8) : Except Defect (List Char) :=
  decodeFrom 0 none [] octets

/-- The text with every line break as a line feed. -/
def withLineFeeds : List Char → List Char
  | '\r' :: '\n' :: rest => '\n' :: withLineFeeds rest
  | '\r' :: rest => '\n' :: withLineFeeds rest
  | c :: rest => c :: withLineFeeds rest
  | [] => []

end Componentry.Text
