import Componentry.Text.Join

/-!
# Dates and times

Dates of the Gregorian calendar from year 1 to year 9999, times of the day to the microsecond, and
moments, which are both together and may have an offset from universal time.

Each has two texts: `text` is the one for readers, `debug` the one inside other values.
-/

namespace Componentry

/-- A date. -/
structure Date where
  year : Nat
  month : Nat
  day : Nat
  deriving DecidableEq, Repr

/-- A time of the day. -/
structure TimeOfDay where
  hour : Nat
  minute : Nat
  second : Nat
  micro : Nat
  deriving DecidableEq, Repr

/-- A date and a time of the day, with an offset from universal time in seconds if it is known. -/
structure Moment where
  date : Date
  time : TimeOfDay
  offset : Option Int
  deriving DecidableEq, Repr

/-- A number with zeros in front up to `width` digits. -/
def padded (width n : Nat) : String :=
  let digits := Nat.repr n
  String.ofList (List.replicate (width - digits.length) '0') ++ digits

namespace Date

/-- Whether a year has a leap day. -/
def isLeap (year : Nat) : Bool :=
  year % 4 == 0 && (year % 100 != 0 || year % 400 == 0)

/-- The number of days of a month. -/
def daysIn (year month : Nat) : Nat :=
  if month == 2 then (if isLeap year then 29 else 28)
  else if month == 4 || month == 6 || month == 9 || month == 11 then 30
  else 31

/-- The days of a year before the first of a month. -/
def daysBefore (year month : Nat) : Nat :=
  (List.range (month - 1)).foldl (fun days m => days + daysIn year (m + 1)) 0

/-- The number of a day, counted from the first day of year 1. -/
def ordinal (d : Date) : Nat :=
  let y := d.year - 1
  365 * y + y / 4 - y / 100 + y / 400 + daysBefore d.year d.month + d.day

/-- The text `2001-12-14`. -/
def text (d : Date) : String :=
  padded 4 d.year ++ "-" ++ padded 2 d.month ++ "-" ++ padded 2 d.day

/-- The numbers of a date. -/
def fields (d : Date) : List String :=
  [toString d.year, toString d.month, toString d.day]

/-- The text of a date inside another value. -/
def debug (d : Date) : String :=
  "datetime.date(" ++ Text.joined ", " d.fields ++ ")"

end Date

namespace TimeOfDay

/-- The microseconds since midnight. -/
def micros (t : TimeOfDay) : Nat :=
  ((t.hour * 60 + t.minute) * 60 + t.second) * 1000000 + t.micro

/-- The text `21:59:43`, with six places of a second unless they are zero. -/
def text (t : TimeOfDay) : String :=
  padded 2 t.hour ++ ":" ++ padded 2 t.minute ++ ":" ++ padded 2 t.second ++
    (if t.micro == 0 then "" else "." ++ padded 6 t.micro)

/-- The numbers of a time; zeros at the end are left out, but not the minute. -/
def fields (t : TimeOfDay) : List String :=
  [toString t.hour, toString t.minute] ++
    (if t.micro != 0 then [toString t.second, toString t.micro]
     else if t.second != 0 then [toString t.second]
     else [])

/-- The text of a time inside another value. -/
def debug (t : TimeOfDay) : String :=
  "datetime.time(" ++ Text.joined ", " t.fields ++ ")"

end TimeOfDay

/-! ## Spans of time -/

/-- The text of a span of whole seconds inside another value: days, then the seconds of a day. -/
def spanDebug (seconds : Int) : String :=
  let days := Int.fdiv seconds 86400
  let rest := Int.fmod seconds 86400
  let parts := (if days == 0 then [] else [s!"days={days}"]) ++
    (if rest == 0 then [] else [s!"seconds={rest}"])
  "datetime.timedelta(" ++ (if parts.isEmpty then "0" else Text.joined ", " parts) ++ ")"

/-- The text `+02:30` of an offset, with seconds unless they are zero. -/
def offsetText (seconds : Int) : String :=
  let n := seconds.natAbs
  (if seconds < 0 then "-" else "+") ++ padded 2 (n / 3600) ++ ":" ++ padded 2 (n / 60 % 60) ++
    (if n % 60 == 0 then "" else ":" ++ padded 2 (n % 60))

/-- The text of an offset inside another value. -/
def offsetDebug (seconds : Int) : String :=
  if seconds == 0 then "datetime.timezone.utc"
  else "datetime.timezone(" ++ spanDebug seconds ++ ")"

namespace Moment

/-- The text `2001-12-14 21:59:43+02:30`. -/
def text (m : Moment) : String :=
  m.date.text ++ " " ++ m.time.text ++ (m.offset.map offsetText).getD ""

/-- The text of a moment inside another value. -/
def debug (m : Moment) : String :=
  "datetime.datetime(" ++
    Text.joined ", " (m.date.fields ++ m.time.fields ++
      (m.offset.map fun o => "tzinfo=" ++ offsetDebug o).toList) ++ ")"

/-- The microseconds since the start of the calendar, less the offset if there is one. -/
def instant (m : Moment) : Int :=
  (m.date.ordinal * 86400000000 + m.time.micros : Nat) - m.offset.getD 0 * 1000000

/-- Whether two moments are the same point in time.  A moment with an offset is never the same as
one without. -/
def same (a b : Moment) : Bool :=
  a.offset.isSome == b.offset.isSome && a.instant == b.instant

end Moment

end Componentry
