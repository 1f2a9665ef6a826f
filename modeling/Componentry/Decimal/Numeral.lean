import Componentry.Decimal.Double
import Componentry.Fault
import Componentry.Text.Blank

/-!
# Numerals

Texts that spell numbers: an integer in some base, and a number with a fraction and an exponent.
Digits of every script count, a sign may stand in front, and blanks around the number are left
out.
-/

namespace Componentry.Numeral

/-- The text with the digits of all scripts as those of ASCII, and other blanks as spaces.  What is
neither becomes a question mark, which no number contains. -/
def withPlainDigits (cs : List Char) : List Char :=
  cs.map fun c =>
    if c.toNat < 0x7F then c
    else if Text.isBlank c then ' '
    else
      match Text.digitValue? c with
      | some d => Char.ofNat ('0'.toNat + d)
      | none => '?'

/-- Whether `c` is a blank of ASCII. -/
def isPlainBlank (c : Char) : Bool :=
  c == ' ' || (0x09 ≤ c.toNat && c.toNat ≤ 0x0D)

/-- The text in plain digits and without the blanks around it. -/
def core (cs : List Char) : List Char :=
  let cs := (withPlainDigits cs).dropWhile isPlainBlank
  (cs.reverse.dropWhile isPlainBlank).reverse

/-- Whether there is a minus sign in front, and the text behind the sign. -/
def splitSign : List Char → Bool × List Char
  | '-' :: cs => (true, cs)
  | '+' :: cs => (false, cs)
  | cs => (false, cs)

/-- The value of a digit in bases up to 36. -/
def digitValue? (c : Char) : Option Nat :=
  if c.isDigit then some (c.toNat - '0'.toNat)
  else if c.isLower then some (c.toNat - 'a'.toNat + 10)
  else if c.isUpper then some (c.toNat - 'A'.toNat + 10)
  else none

/-- Whether `c` is a digit in a base. -/
def isDigitIn (base : Nat) (c : Char) : Bool :=
  (digitValue? c).any (· < base)

/-- The number that digits denote in a base. -/
def natOf (base : Nat) (cs : List Char) : Nat :=
  cs.foldl (fun n c => base * n + (digitValue? c).getD 0) 0

/-- The letters that may follow a zero in front of digits in a base. -/
def baseLetters : Nat → List Char
  | 2 => ['b', 'B']
  | 8 => ['o', 'O']
  | 16 => ['x', 'X']
  | _ => []

/-- The text behind a zero and a letter for the base. -/
def withoutBase (base : Nat) : List Char → List Char
  | '0' :: c :: cs => if (baseLetters base).contains c then cs else '0' :: c :: cs
  | cs => cs

/-- The integer that a text spells in a base.  In base ten there is a limit to the number of
digits. -/
def integer (base : Nat) (text : List Char) : Except Fault Int :=
  let (negative, cs) := splitSign (core text)
  let cs := withoutBase base cs
  let digits := cs.takeWhile (isDigitIn base)
  if base == 10 && Text.digitLimit < digits.length then .error (.tooManyDigits digits.length)
  else if digits.isEmpty || digits.length < cs.length then
    .error (.notInteger base (String.ofList text))
  else
    let n : Int := natOf base digits
    .ok (if negative then -n else n)

/-- The exponent that a text spells; an empty text spells zero. -/
def exponent? : List Char → Option Int
  | [] => some 0
  | c :: cs =>
    let (negative, digits) := splitSign cs
    if (c == 'e' || c == 'E') && !digits.isEmpty && digits.all Char.isDigit then
      let n : Int := natOf 10 digits
      some (if negative then -n else n)
    else none

/-- The number with a fraction that a text without a sign spells. -/
def unsigned? (negative : Bool) (cs : List Char) : Option Double :=
  let whole := cs.takeWhile Char.isDigit
  let rest := cs.dropWhile Char.isDigit
  let (fraction, rest) :=
    match rest with
    | '.' :: rest => (rest.takeWhile Char.isDigit, rest.dropWhile Char.isDigit)
    | _ => ([], rest)
  if whole.isEmpty && fraction.isEmpty then none
  else
    (exponent? rest).map fun e =>
      Double.ofDecimal negative (natOf 10 (whole ++ fraction)) (e - (fraction.length : Int))

/-- The number with a fraction that a text spells; infinities and the number that is none have
names. -/
def float (text : List Char) : Except Fault Double :=
  let (negative, cs) := splitSign (core text)
  let name := String.ofList (cs.map Char.toLower)
  if name == "inf" || name == "infinity" then .ok (Double.infinity negative)
  else if name == "nan" then .ok Double.nan
  else
    match unsigned? negative cs with
    | some x => .ok x
    | none => .error (.notNumber (String.ofList text))

end Componentry.Numeral
