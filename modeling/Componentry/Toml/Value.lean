import Componentry.Decimal.Numeral
import Componentry.Toml.Text

/-!
# Numbers, dates and times in TOML

A value that starts like a date is one, and then a time, and then a number; each reader takes as
many characters as belong to it, and what is left over is for the caller.
-/

namespace Componentry.Toml

/-! ## Numbers -/

/-- Digits for which `p` holds at the start of a text, with single underscores between them.  The
text that is given still has the underscores. -/
def digitRun (p : Char → Bool) (cs : List Char) : List Char :=
  match cs with
  | [] => []
  | c :: rest => if p c then c :: more rest else []
where
  /-- The digits that go on, each perhaps behind an underscore. -/
  more : List Char → List Char
    | '_' :: c :: rest => if p c then '_' :: c :: more rest else []
    | c :: rest => if p c then c :: more rest else []
    | [] => []

/-- An integer in another base behind its two first characters. -/
def based? (cs : List Char) : Option (Nat × List Char) :=
  match cs with
  | '0' :: letter :: rest =>
    let base := if letter == 'x' then 16 else if letter == 'o' then 8
      else if letter == 'b' then 2 else 0
    let digits := digitRun (Numeral.isDigitIn base) rest
    if base == 0 || digits.isEmpty then none else some (base, digits)
  | _ => none

/-- The fraction of a number, with its point, if there is one. -/
def fraction : List Char → List Char
  | '.' :: cs =>
    let digits := digitRun Char.isDigit cs
    if digits.isEmpty then [] else '.' :: digits
  | _ => []

/-- The exponent of a number, with its letter, if there is one. -/
def exponent : List Char → List Char
  | c :: cs =>
    if c == 'e' || c == 'E' then
      let sign := (cs.take 1).filter fun d => d == '+' || d == '-'
      let digits := digitRun Char.isDigit (cs.drop sign.length)
      if digits.isEmpty then [] else c :: (sign ++ digits)
    else []
  | [] => []

/-- The digits of a whole number; a zero stands alone. -/
def whole : List Char → List Char
  | '0' :: _ => ['0']
  | cs => digitRun Char.isDigit cs

/-- The text without underscores. -/
def withoutUnderscores (cs : List Char) : List Char :=
  cs.filter (· != '_')

/-- A number, if there is one. -/
def number? (cs : List Char) : Option (Except Fault Scalar × List Char) :=
  match based? cs with
  | some (base, digits) =>
    some (.ok (.int (Numeral.natOf base (withoutUnderscores digits))), cs.drop (2 + digits.length))
  | none =>
    let sign := (cs.take 1).filter fun c => c == '+' || c == '-'
    let unsigned := cs.drop sign.length
    let whole := whole unsigned
    if whole.isEmpty then none
    else
      let fraction := fraction (unsigned.drop whole.length)
      let exponent := exponent (unsigned.drop (whole.length + fraction.length))
      let text := withoutUnderscores (sign ++ whole ++ fraction ++ exponent)
      let value : Except Fault Scalar :=
        if fraction.isEmpty && exponent.isEmpty then do return .int (← Numeral.integer 10 text)
        else do return .float (← Numeral.float text)
      some (value, unsigned.drop (whole.length + fraction.length + exponent.length))

/-- A number that has a name, if there is one. -/
def named? (cs : List Char) : Option (Scalar × List Char) :=
  let names : List (String × Double) :=
    [("inf", .infinity false), ("nan", .nan), ("-inf", .infinity true), ("+inf", .infinity false),
     ("-nan", .nan), ("+nan", .nan)]
  (names.find? fun (name, _) => name.toList.isPrefixOf cs).map fun (name, x) =>
    (.float x, cs.drop name.length)

/-! ## Dates and times -/

/-- A number of exactly `n` digits between two bounds, if there is one. -/
def bounded? (n low high : Nat) (cs : List Char) : Option (Nat × List Char) :=
  let digits := cs.take n
  let value := Numeral.natOf 10 digits
  if digits.length == n && digits.all Char.isDigit && low ≤ value && value ≤ high then
    some (value, cs.drop n)
  else none

/-- The text behind the character `c`. -/
def after? (c : Char) : List Char → Option (List Char)
  | d :: rest => if c == d then some rest else none
  | [] => none

/-- A time of the day, if there is one.  Only six digits of a second count. -/
def time? (cs : List Char) : Option (TimeOfDay × List Char) := do
  let (hour, cs) ← bounded? 2 0 23 cs
  let (minute, cs) ← bounded? 2 0 59 (← after? ':' cs)
  let (second, cs) ← bounded? 2 0 59 (← after? ':' cs)
  let digits :=
    match cs with
    | '.' :: rest => rest.takeWhile Char.isDigit
    | _ => []
  if digits.isEmpty then return (⟨hour, minute, second, 0⟩, cs)
  else
    let micro := digits.take 6
    let micro := Numeral.natOf 10 (micro ++ List.replicate (6 - micro.length) '0')
    return (⟨hour, minute, second, micro⟩, cs.drop (1 + digits.length))

/-- An offset from universal time in seconds, if there is one. -/
def offset? (cs : List Char) : Option (Int × List Char) :=
  match cs with
  | sign :: rest =>
    if sign == 'Z' || sign == 'z' then some (0, rest)
    else if sign == '+' || sign == '-' then do
      let (hour, rest) ← bounded? 2 0 23 rest
      let (minute, rest) ← bounded? 2 0 59 (← after? ':' rest)
      let seconds : Int := hour * 3600 + minute * 60
      return (if sign == '-' then -seconds else seconds, rest)
    else none
  | [] => none

/-- The year, the month and the day of a date, if there is one.  The day may still be beyond the
end of the month. -/
def date? (cs : List Char) : Option (Date × List Char) := do
  let (year, cs) ← bounded? 4 0 9999 cs
  let (month, cs) ← bounded? 2 1 12 (← after? '-' cs)
  let (day, cs) ← bounded? 2 1 31 (← after? '-' cs)
  return (⟨year, month, day⟩, cs)

/-- The time and the offset that follow a date, if they do. -/
def timeAfterDate? (cs : List Char) : Option (TimeOfDay × Option Int × List Char) :=
  match cs with
  | c :: rest =>
    if c == 'T' || c == 't' || c == ' ' then do
      let (time, rest) ← time? rest
      match offset? rest with
      | some (seconds, rest) => return (time, some seconds, rest)
      | none => return (time, none, rest)
    else none
  | [] => none

/-- Whether there is such a day. -/
def isDay (d : Date) : Bool :=
  1 ≤ d.year && d.day ≤ Date.daysIn d.year d.month

/-- A date or a moment, if there is one. -/
def moment? (cs : List Char) : Option (Except Stop (Scalar × List Char)) :=
  match date? cs with
  | none => none
  | some (date, rest) =>
    if !isDay date then some (.error (.problem .invalidDate cs))
    else
      match timeAfterDate? rest with
      | some (time, offset, rest) => some (.ok (.moment ⟨date, time, offset⟩, rest))
      | none => some (.ok (.date date, rest))

/-- A value that is no string and no container. -/
def scalar (cs : List Char) : Except Stop (Scalar × List Char) :=
  if "true".toList.isPrefixOf cs then .ok (.bool true, cs.drop 4)
  else if "false".toList.isPrefixOf cs then .ok (.bool false, cs.drop 5)
  else
    match moment? cs with
    | some outcome => outcome
    | none =>
      match time? cs with
      | some (time, rest) => .ok (.time time, rest)
      | none =>
        match number? cs with
        | some (.ok value, rest) => .ok (value, rest)
        | some (.error f, _) => .error (.fault f)
        | none =>
          match named? cs with
          | some outcome => .ok outcome
          | none => .error (.problem .invalidValue cs)

end Componentry.Toml
