import Componentry.Fault
import Componentry.Text.Name

/-!
# Timestamps

A timestamp is a date, alone or with a time of the day behind a blank or the letter T; the time may
have a fraction of a second and an offset from universal time.  `Timestamp.parse?` takes the text
apart, and `Timestamp.value` checks the ranges.
-/

namespace Componentry.Yaml

/-- The offset of a timestamp, as it is written. -/
inductive Zone where
  /-- The letter Z. -/
  | universal
  | offset (negative : Bool) (hour minute : Nat)
  deriving DecidableEq, Repr

/-- The time of a timestamp, as it is written. -/
structure Clock where
  hour : Nat
  minute : Nat
  second : Nat
  /-- The digits behind the point. -/
  fraction : List Char
  zone : Option Zone
  deriving DecidableEq, Repr

/-- A timestamp, as it is written. -/
structure Timestamp where
  year : Nat
  month : Nat
  day : Nat
  clock : Option Clock
  deriving DecidableEq, Repr

namespace Timestamp

/-- A number of `least` to `most` digits at the start of a text, and the rest.  More digits than
`most` are left in the rest. -/
def digits? (least most : Nat) (cs : List Char) : Option (Nat × List Char) :=
  let run := (cs.takeWhile Char.isDigit).take most
  if run.length < least then none else some (Text.natOfDigits run, cs.drop run.length)

/-- The text behind the character `c`. -/
def after? (c : Char) : List Char → Option (List Char)
  | d :: rest => if c == d then some rest else none
  | [] => none

/-- Whether `c` is a space or a tab. -/
def isBlankChar (c : Char) : Bool :=
  c == ' ' || c == '\t'

/-- The offset at the end of a text, which is empty if there is none. -/
def zone? (cs : List Char) : Option (Option Zone) :=
  match cs.dropWhile isBlankChar with
  | [] => if cs.isEmpty then some none else none
  | ['Z'] => some (some .universal)
  | sign :: rest =>
    if sign == '+' || sign == '-' then do
      let (hour, rest) ← digits? 1 2 rest
      if rest.isEmpty then return some (.offset (sign == '-') hour 0)
      let (minute, rest) ← digits? 2 2 (← after? ':' rest)
      if rest.isEmpty then return some (.offset (sign == '-') hour minute) else none
    else none

/-- The time that a text behind a date is. -/
def clock? (cs : List Char) : Option Clock := do
  let (hour, cs) ← digits? 1 2 cs
  let (minute, cs) ← digits? 2 2 (← after? ':' cs)
  let (second, cs) ← digits? 2 2 (← after? ':' cs)
  match cs with
  | '.' :: cs =>
    let zone ← zone? (cs.dropWhile Char.isDigit)
    return ⟨hour, minute, second, cs.takeWhile Char.isDigit, zone⟩
  | _ =>
    let zone ← zone? cs
    return ⟨hour, minute, second, [], zone⟩

/-- The timestamp that a text spells. -/
def parse? (cs : List Char) : Option Timestamp := do
  let (year, cs) ← digits? 4 4 cs
  let (month, cs) ← digits? 1 2 (← after? '-' cs)
  let (day, cs) ← digits? 1 2 (← after? '-' cs)
  match cs with
  | [] => return ⟨year, month, day, none⟩
  | c :: rest =>
    if c == 'T' || c == 't' then return ⟨year, month, day, some (← clock? rest)⟩
    else if isBlankChar c then
      return ⟨year, month, day, some (← clock? (rest.dropWhile isBlankChar))⟩
    else none

/-- Whether a text is a timestamp of its own accord: a date alone needs all its digits. -/
def isImplicit (cs : List Char) : Bool :=
  match parse? cs with
  | some t => t.clock.isSome || cs.length == 10
  | none => false

/-- The offset in seconds. -/
def Zone.seconds : Zone → Except Fault Int
  | .universal => .ok 0
  | .offset negative hour minute =>
    let n : Int := hour * 3600 + minute * 60
    let n := if negative then -n else n
    if n ≤ -86400 || 86400 ≤ n then .error (.offsetOutOfRange n) else .ok n

/-- The date of a timestamp. -/
def date (t : Timestamp) : Except Fault Date :=
  if t.year < 1 || 9999 < t.year then .error (.outOfRange (.year t.year))
  else if t.month < 1 || 12 < t.month then .error (.outOfRange .month)
  else if t.day < 1 || Date.daysIn t.year t.month < t.day then .error (.outOfRange .day)
  else .ok ⟨t.year, t.month, t.day⟩

/-- The time of a clock; only the first six digits of the fraction count. -/
def Clock.time (c : Clock) : Except Fault TimeOfDay :=
  if 23 < c.hour then .error (.outOfRange .hour)
  else if 59 < c.minute then .error (.outOfRange .minute)
  else if 59 < c.second then .error (.outOfRange .second)
  else
    let micro := c.fraction.take 6
    .ok ⟨c.hour, c.minute, c.second,
      Text.natOfDigits (micro ++ List.replicate (6 - micro.length) '0')⟩

/-- What a timestamp stands for: a date, or a date and a time.  The offset is looked at first. -/
def value (t : Timestamp) : Except Fault (Date × Option (TimeOfDay × Option Int)) :=
  match t.clock with
  | none => do return (← t.date, none)
  | some clock => do
    let offset ←
      match clock.zone with
      | none => pure none
      | some zone => do pure (some (← Zone.seconds zone))
    let date ← t.date
    return (date, some (← Clock.time clock, offset))

end Timestamp

end Componentry.Yaml
