import Componentry.Decimal.Double

/-!
# The shortest digits of a double

A double is written with the fewest decimal digits that read back as the same double, and among
those with the digits nearest to its value.

The reals that round to a positive finite double form an interval around it; the ends belong to it
when the significand is even.  For one digit, two digits, and so on, the two neighbours of the
value on the decimal grid of that width are tried; the first grid with a neighbour in the interval
wins.  Seventeen digits always suffice.

## Layout

Numbers whose first digit stands between the fourth place behind the point and the sixteenth before
it are written positionally and always with a point; all others have an exponent with a sign and at
least two digits.
-/

namespace Componentry.Double

/-! ## Digits -/

/-- The positive rational `num / den`. -/
structure Ratio where
  num : Nat
  den : Nat

/-- Whether one ratio is at most the other. -/
def Ratio.le (a b : Ratio) : Bool :=
  a.num * b.den ≤ b.num * a.den

/-- Whether one ratio is below the other. -/
def Ratio.lt (a b : Ratio) : Bool :=
  a.num * b.den < b.num * a.den

/-- `m * 2 ^ q` as a ratio. -/
def Ratio.ofBinary (m : Nat) (q : Int) : Ratio :=
  if 0 ≤ q then ⟨m <<< q.toNat, 1⟩ else ⟨m, 1 <<< (-q).toNat⟩

/-- `m * 10 ^ e` as a ratio. -/
def Ratio.ofDecimal (m : Nat) (e : Int) : Ratio :=
  if 0 ≤ e then ⟨m * Nat.pow 10 e.toNat, 1⟩ else ⟨m, Nat.pow 10 (-e).toNat⟩

/-- A decimal number `digits * 10 ^ exponent`. -/
structure Digits where
  digits : Nat
  exponent : Int
  deriving Repr, DecidableEq

/-- The interval of reals that round to a double: its ends, and whether they belong to it. -/
structure Interval where
  low : Ratio
  high : Ratio
  closed : Bool

/-- Whether a ratio lies in an interval. -/
def Interval.contains (i : Interval) (r : Ratio) : Bool :=
  if i.closed then i.low.le r && r.le i.high else i.low.lt r && r.lt i.high

/-- The interval of a positive finite double.  Below a power of two the doubles lie twice as
close. -/
def interval (x : Double) : Interval :=
  let m := x.significand
  let below := if m == leadingBit && 1 < x.exponentField then 1 else 2
  { low := .ofBinary (4 * m - below) (x.exponent - 2)
    high := .ofBinary (4 * m + 2) (x.exponent - 2)
    closed := m % 2 == 0 }

/-- The place of the first digit of a positive ratio: the `k` with `10 ^ (k - 1) ≤ r < 10 ^ k`. -/
def Ratio.place (r : Ratio) : Int :=
  if r.den ≤ r.num then (Nat.toDigits 10 (r.num / r.den)).length
  else
    match (List.range 400).find? fun j => r.den ≤ r.num * Nat.pow 10 j with
    | some j => 1 - (j : Int)
    | none => 0

/-- The nearer of the two neighbours of `r` on the grid of multiples of `10 ^ e`, among those in
the interval; the even one when both are equally near. -/
def gridPoint? (i : Interval) (r : Ratio) (e : Int) : Option Digits :=
  let unit := Ratio.ofDecimal 1 e
  let n := r.num * unit.den
  let d := r.den * unit.num
  let lower := n / d
  let rest := 2 * (n % d)
  let upper := lower + 1
  let lowerIn := 0 < lower && i.contains (.ofDecimal lower e)
  let upperIn := i.contains (.ofDecimal upper e)
  let preferLower := rest < d || (rest == d && lower % 2 == 0)
  if lowerIn && (preferLower || !upperIn) then some ⟨lower, e⟩
  else if upperIn then some ⟨upper, e⟩
  else none

/-- The digits without zeros at their end. -/
def Digits.normalized : (fuel : Nat) → Digits → Digits
  | 0, d => d
  | fuel + 1, d =>
    if d.digits != 0 && d.digits % 10 == 0 then
      Digits.normalized fuel ⟨d.digits / 10, d.exponent + 1⟩
    else d

/-- The shortest digits of a positive finite double. -/
def shortest (x : Double) : Digits :=
  let i := x.interval
  let r := Ratio.ofBinary x.significand x.exponent
  let k := r.place
  let found := (List.range 17).findSome? fun (n : Nat) => gridPoint? i r (k - 1 - (n : Int))
  (found.getD ⟨0, 0⟩).normalized 20

/-! ## Layout -/

/-- The digits with the point `place` digits behind the start. -/
def positional (digits : String) (place : Int) : String :=
  if place ≤ 0 then "0." ++ "".pushn '0' (-place).toNat ++ digits
  else
    let p := place.toNat
    if digits.length ≤ p then digits.pushn '0' (p - digits.length) ++ ".0"
    else (digits.take p).toString ++ "." ++ (digits.drop p).toString

/-- The digits with a point behind the first one, if there are more, and an exponent. -/
def scientific (digits : String) (place : Int) : String :=
  let head := (digits.take 1).toString
  let tail := (digits.drop 1).toString
  let e := place - 1
  let size := toString e.natAbs
  let size := if size.length < 2 then "0" ++ size else size
  head ++ (if tail.isEmpty then "" else "." ++ tail) ++ (if e < 0 then "e-" else "e+") ++ size

/-- The text of a double: the shortest digits that read back. -/
def text (x : Double) : String :=
  if x.isNaN then "nan"
  else
    let sign := if x.isNegative then "-" else ""
    if x.isInfinite then sign ++ "inf"
    else if x.isZero then sign ++ "0.0"
    else
      let d := x.shortest
      let digits := Nat.repr d.digits
      let place := d.exponent + (digits.length : Int)
      sign ++ (if -4 < place && place ≤ 16 then positional digits place else scientific digits place)

end Componentry.Double
