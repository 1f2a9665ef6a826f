/-!
# Octets in base 64

Four characters spell three octets.  Characters outside the alphabet are skipped, and an equals
sign where the rest of a group is missing ends the text.
-/

namespace Componentry.Text

/-- The value of a character of the alphabet. -/
def base64Value? (c : Char) : Option Nat :=
  let n := c.toNat
  if c.isUpper then some (n - 'A'.toNat)
  else if c.isLower then some (n - 'a'.toNat + 26)
  else if c.isDigit then some (n - '0'.toNat + 52)
  else if c == '+' then some 62
  else if c == '/' then some 63
  else none

/-- What is wrong with a text that spells no octets. -/
inductive Base64Defect where
  /-- One character of a group stands alone; so many characters were read. -/
  | lone (count : Nat)
  /-- A group of two or three characters is not filled up. -/
  | unpadded
  deriving DecidableEq, Repr

/-- The text of a defect. -/
def Base64Defect.message : Base64Defect → String
  | .lone count =>
    s!"Invalid base64-encoded string: number of data characters ({count}) cannot be 1 more " ++
      "than a multiple of 4"
  | .unpadded => "Incorrect padding"

/-- Reads octets.  `place` is the number of characters of the current group that are read, `left`
the bits that they leave over, `pads` the equals signs since, and `done` the octets, the last one
first. -/
def decodeBase64From (place left pads : Nat) (done : List UInt8) :
    List Char → Except Base64Defect (List UInt8)
  | [] =>
    if place == 0 then .ok done.reverse
    else if place == 1 then .error (.lone (done.length / 3 * 4 + 1))
    else .error .unpadded
  | c :: rest =>
    if c == '=' then
      if 2 ≤ place then
        if 4 ≤ place + (pads + 1) then .ok done.reverse
        else decodeBase64From place left (pads + 1) done rest
      else decodeBase64From place left pads done rest
    else
      match base64Value? c with
      | none => decodeBase64From place left pads done rest
      | some v =>
        match place with
        | 0 => decodeBase64From 1 v 0 done rest
        | 1 => decodeBase64From 2 (v % 16) 0 (UInt8.ofNat (left * 4 + v / 16) :: done) rest
        | 2 => decodeBase64From 3 (v % 4) 0 (UInt8.ofNat (left * 16 + v / 4) :: done) rest
        | _ => decodeBase64From 0 0 0 (UInt8.ofNat (left * 64 + v) :: done) rest

/-- The octets that a text spells. -/
def decodeBase64 (cs : List Char) : Except Base64Defect (List UInt8) :=
  decodeBase64From 0 0 0 [] cs

end Componentry.Text
