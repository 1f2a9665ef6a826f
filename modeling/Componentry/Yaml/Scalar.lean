import Componentry.Decimal.Numeral
import Componentry.Document.Value
import Componentry.Text.Base64
import Componentry.Text.Case
import Componentry.Yaml.Tag
import Componentry.Yaml.Trouble

/-!
# The values of scalars

What the text of a scalar stands for, by the form that its tag asks for.  A tag can ask for a form
that the text does not have; each reader then says what is wrong.
-/

namespace Componentry.Yaml

/-- The words for truth values. -/
def truthWords : List (String × Bool) :=
  [("yes", true), ("no", false), ("true", true), ("false", false), ("on", true), ("off", false)]

/-- The truth value that a text spells, in any case. -/
def truthValue (text : String) : Except Fault Bool :=
  match truthWords.lookup (Text.lower text) with
  | some b => .ok b
  | none => .error (.unknownWord (Text.lower text))

/-- The text without underscores. -/
def withoutUnderscores (cs : List Char) : List Char :=
  cs.filter (· != '_')

/-- Whether a text starts with a minus sign, and what follows its sign.  An empty text has no first
character to look at. -/
def takeSign (cs : List Char) : Except Fault (Bool × List Char) :=
  match cs with
  | [] => .error .noCharacter
  | c :: rest => .ok (c == '-', if c == '-' || c == '+' then rest else cs)

/-- The integer with the given parts in base sixty, the most significant first. -/
def sexagesimal (parts : List Int) : Int :=
  parts.foldl (fun n part => 60 * n + part) 0

/-- The integer that a text without a sign spells.  A zero in front and a letter choose the base,
a zero in front alone base eight; colons separate digits in base sixty. -/
def unsignedInteger (cs : List Char) : Except Fault Int :=
  match cs with
  | ['0'] => .ok 0
  | '0' :: 'b' :: digits => Numeral.integer 2 digits
  | '0' :: 'x' :: digits => Numeral.integer 16 digits
  | '0' :: _ => Numeral.integer 8 cs
  | [] => .error .noCharacter
  | _ =>
    if cs.contains ':' then do
      return sexagesimal (← (Text.splitOn ':' cs).mapM (Numeral.integer 10))
    else Numeral.integer 10 cs

/-- The integer that a text spells. -/
def integerValue (text : String) : Except Fault Int := do
  let (negative, cs) ← takeSign (withoutUnderscores text.toList)
  let n ← unsignedInteger cs
  return if negative then -n else n

/-- The sum of digits in base sixty, the least significant first, when the first one counts
`base`. -/
def sexagesimalSum (base : Nat) (sum : Double) : List Double → Except Fault Double
  | [] => .ok sum
  | digit :: rest =>
    let unit := Double.ofInt base
    if unit.isInfinite then .error .beyondFloat
    else sexagesimalSum (base * 60) (sum.add (digit.mul unit)) rest

/-- The number that a text without a sign spells. -/
def unsignedFloat (cs : List Char) : Except Fault Double :=
  if cs == ".inf".toList then .ok (Double.infinity false)
  else if cs.contains ':' then do
    let digits ← (Text.splitOn ':' cs).mapM Numeral.float
    sexagesimalSum 1 (Double.ofInt 0) digits.reverse
  else Numeral.float cs

/-- The number with a fraction that a text spells.  The word for what is no number always stands for
the same; any other spelling of it stands for the one with the number `own`. -/
def floatValue (own : Nat) (text : String) : Except Fault Double := do
  let lowered := Text.lower (String.ofList (withoutUnderscores text.toList))
  let (negative, cs) ← takeSign lowered.toList
  if cs == ".nan".toList then return .nan
  let x ← unsignedFloat cs
  return if x.isNaN then .nanOf own else if negative then x.negate else x

/-- The complaint about characters of a text outside ASCII, if there are any: the first run of
them. -/
def asciiComplaint? (cs : List Char) : Option String :=
  let isPlain (c : Char) : Bool := c.toNat < 0x80
  match cs.dropWhile isPlain with
  | [] => none
  | c :: rest =>
    let start := (cs.takeWhile isPlain).length
    let more := (rest.takeWhile (!isPlain ·)).length
    let range := ": ordinal not in range(128)"
    if more == 0 then
      some ("'ascii' codec can't encode character '" ++ String.ofList (Text.escapedCode c.toNat) ++
        s!"' in position {start}" ++ range)
    else some (s!"'ascii' codec can't encode characters in position {start}-{start + more}" ++ range)

/-- The octets that a text spells in base 64. -/
def octetsValue (text : String) : Except Problem (List UInt8) :=
  match asciiComplaint? text.toList with
  | some reason => .error (.notAscii reason)
  | none => (Text.decodeBase64 text.toList).mapError fun defect => .notBase64 defect.message

/-- The date or moment that a text spells. -/
def timestampValue (text : String) : Except Fault Scalar :=
  match Timestamp.parse? (Text.withoutFinalNewline text.toList) with
  | none => .error (.noMember "NoneType" "groupdict")
  | some t => do
    match ← t.value with
    | (date, none) => return .date date
    | (date, some (time, offset)) => return .moment ⟨date, time, offset⟩

end Componentry.Yaml
