import Componentry.Text.Digit

/-!
# Double-precision numbers

A `Double` is the 64 bits of an IEEE 754 binary64 number.  A finite one is a sign, a significand
below 2^53 and a power of two; everything here is computed from those in exact arithmetic.

* `Double.ofDecimal` reads a decimal number: the nearest double, ties to the even significand.
* `Double.toInt?` is the integer that a double equals, if there is one.

There are many doubles that are not numbers.  None of them equals any other, so each is known by its
fraction (`Double.nanOf`).
-/

namespace Componentry

/-- The bits of a double-precision number. -/
structure Double where
  bits : UInt64
  deriving DecidableEq, Repr, Inhabited

namespace Double

/-! ## Taking a number apart -/

/-- Whether the sign bit is set. -/
def isNegative (x : Double) : Bool :=
  x.bits >>> 63 == 1

/-- The eleven bits of the exponent. -/
def exponentField (x : Double) : Nat :=
  ((x.bits >>> 52) &&& 0x7FF).toNat

/-- The fifty-two bits of the fraction. -/
def fractionField (x : Double) : Nat :=
  (x.bits &&& 0xFFFFFFFFFFFFF).toNat

/-- Whether `x` is not a number. -/
def isNaN (x : Double) : Bool :=
  x.exponentField == 0x7FF && x.fractionField != 0

/-- Whether `x` is one of the infinities. -/
def isInfinite (x : Double) : Bool :=
  x.exponentField == 0x7FF && x.fractionField == 0

/-- Whether `x` is finite. -/
def isFinite (x : Double) : Bool :=
  x.exponentField != 0x7FF

/-- The first of the fifty-three bits of a significand, which is not written in the fraction. -/
def leadingBit : Nat :=
  1 <<< 52

/-- The significand of a finite number. -/
def significand (x : Double) : Nat :=
  if x.exponentField == 0 then x.fractionField else x.fractionField + leadingBit

/-- The power of two that goes with the significand. -/
def exponent (x : Double) : Int :=
  if x.exponentField == 0 then -1074 else (x.exponentField : Int) - 1075

/-- Whether `x` is one of the two zeros. -/
def isZero (x : Double) : Bool :=
  x.isFinite && x.significand == 0

/-- The integer that `x` equals, if there is one. -/
def toInt? (x : Double) : Option Int :=
  if !x.isFinite then none
  else
    let magnitude :=
      if 0 ≤ x.exponent then some (x.significand <<< x.exponent.toNat)
      else
        let unit := 1 <<< (-x.exponent).toNat
        if x.significand % unit == 0 then some (x.significand / unit) else none
    magnitude.map fun n => if x.isNegative then -(n : Int) else n

/-! ## Putting a number together -/

/-- The double with the given sign, exponent field and fraction field. -/
def ofFields (negative : Bool) (exponentField fraction : Nat) : Double :=
  ⟨(if negative then (0x8000000000000000 : UInt64) else 0) ||| (UInt64.ofNat exponentField <<< 52) |||
    UInt64.ofNat fraction⟩

/-- The infinity of the given sign. -/
def infinity (negative : Bool) : Double :=
  ofFields negative 0x7FF 0

/-- The double that is not a number and has the given number among all those. -/
def nanOf (n : Nat) : Double :=
  let quiet := leadingBit >>> 1
  ofFields false 0x7FF (quiet + n % quiet)

/-- The first double that is not a number. -/
def nan : Double :=
  nanOf 0

/-- The quotient `n / d` rounded to the nearest natural number, ties to the even one. -/
def roundDiv (n d : Nat) : Nat :=
  let q := n / d
  let r := n % d
  if 2 * r < d then q
  else if d < 2 * r then q + 1
  else if q % 2 == 0 then q else q + 1

/-- `n / (d * 2 ^ q)`, rounded as `roundDiv` rounds, for any integer `q`. -/
def roundScaled (n d : Nat) (q : Int) : Nat :=
  if 0 ≤ q then roundDiv n (d <<< q.toNat) else roundDiv (n <<< (-q).toNat) d

/-- The power of two that brings `n / d` to a significand of at most fifty-three bits, and not
below the smallest one there is. -/
def scaleOf (n d : Nat) : Int :=
  let q : Int := (n.log2 : Int) - d.log2 - 52
  let short :=
    if 0 ≤ q + 52 then n < d <<< (q + 52).toNat else n <<< (-(q + 52)).toNat < d
  max (if short then q - 1 else q) (-1074)

/-- The double nearest to the ratio `n / d` of a positive and a positive number. -/
def ofRatio (negative : Bool) (n d : Nat) : Double :=
  let q := scaleOf n d
  let m := roundScaled n d q
  let (m, q) := if m == 2 * leadingBit then (leadingBit, q + 1) else (m, q)
  if m < leadingBit then ofFields negative 0 m
  else if 971 < q then infinity negative
  else ofFields negative (q + 1075).toNat (m - leadingBit)

/-- The double nearest to `m * 10 ^ e`.  A number whose first digit stands beyond the 310th place
on either side of the point is out of range, or far below the least positive number. -/
def ofDecimal (negative : Bool) (m : Nat) (e : Int) : Double :=
  if m == 0 then ofFields negative 0 0
  else
    let lead : Int := e + ((Nat.toDigits 10 m).length : Int)
    if 310 < lead then infinity negative
    else if lead < -330 then ofFields negative 0 0
    else if 0 ≤ e then ofRatio negative (m * Nat.pow 10 e.toNat) 1
    else ofRatio negative m (Nat.pow 10 (-e).toNat)

/-- The double nearest to an integer. -/
def ofInt (n : Int) : Double :=
  ofDecimal (n < 0) n.natAbs 0

/-- The same number with the sign turned. -/
def negate (x : Double) : Double :=
  ⟨x.bits ^^^ 0x8000000000000000⟩

/-! ## Arithmetic -/

/-- The sum of two doubles. -/
def add (x y : Double) : Double :=
  ⟨(Float.ofBits x.bits + Float.ofBits y.bits).toBits⟩

/-- The product of two doubles. -/
def mul (x y : Double) : Double :=
  ⟨(Float.ofBits x.bits * Float.ofBits y.bits).toBits⟩

end Double

end Componentry
