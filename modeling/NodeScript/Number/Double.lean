/-!
# Double precision numbers

A double is kept as its 64 bits: a sign, eleven bits of exponent and fifty-two bits of fraction. A
finite double is `± mantissa * 2 ^ exponent` for a natural number and an integer, and everything the
library does with doubles is exact arithmetic on these two: conversion to and from integers,
comparison, and rounding of a quotient to the nearest double, ties to the even mantissa.

Of the not-a-number codes the library uses two: `nan` is a constant, one and the same wherever it
stands, while each `indefinite` is a result of its own.
-/

namespace NodeScript

/-- A double precision number, as its bits. -/
structure Double where
  bits : UInt64
deriving DecidableEq, Inhabited

namespace Double

/-- Whether the sign bit is set. -/
def isNegative (x : Double) : Bool :=
  x.bits >>> 63 == 1

/-- The eleven bits of the exponent. -/
def exponentField (x : Double) : Nat :=
  ((x.bits >>> 52) &&& 0x7ff).toNat

/-- The fifty-two bits of the fraction. -/
def fractionField (x : Double) : Nat :=
  (x.bits &&& 0xfffffffffffff).toNat

/-- Whether the number is one of the not-a-number codes. -/
def isNaN (x : Double) : Bool :=
  x.exponentField == 0x7ff && x.fractionField != 0

/-- Whether the number is an infinity. -/
def isInfinite (x : Double) : Bool :=
  x.exponentField == 0x7ff && x.fractionField == 0

/-- Whether the number is neither infinite nor a not-a-number code. -/
def isFinite (x : Double) : Bool :=
  x.exponentField != 0x7ff

/-- The leading bit of a mantissa, which the fraction field leaves out. -/
def leadingBit : Nat := 0x10000000000000

/-- The natural number that is scaled by a power of two. -/
def mantissa (x : Double) : Nat :=
  if x.exponentField == 0 then x.fractionField else x.fractionField + leadingBit

/-- The power of two that scales the mantissa. -/
def exponent (x : Double) : Int :=
  if x.exponentField == 0 then -1074 else (x.exponentField : Int) - 1075

/-- Whether the number is zero, of either sign. -/
def isZero (x : Double) : Bool :=
  x.isFinite && x.mantissa == 0

/-- The bits put together from sign, exponent field and fraction field. -/
def ofFields (negative : Bool) (exponentField fractionField : Nat) : Double :=
  let sign := if negative then 0x8000000000000000 else 0
  ⟨UInt64.ofNat (sign + exponentField * leadingBit + fractionField)⟩

/-- An infinity. -/
def infinity (negative : Bool) : Double :=
  ofFields negative 0x7ff 0

/-- The not-a-number code of the constant. -/
def nan : Double :=
  ofFields false 0x7ff 0x8000000000000

/-- The not-a-number code of results that have no value. -/
def indefinite : Double :=
  ofFields false 0x7ff 0x8000000000001

/-- Zero with a sign. -/
def zero (negative : Bool) : Double :=
  ofFields negative 0 0

/-- The number with the opposite sign. -/
def negate (x : Double) : Double :=
  ⟨x.bits ^^^ 0x8000000000000000⟩

/-! ### Fractions -/

/-- A numerator and a denominator of the magnitude of a finite double. -/
def fraction (x : Double) : Nat × Nat :=
  (x.mantissa * Nat.pow 2 x.exponent.toNat, Nat.pow 2 (-x.exponent).toNat)

/-- The natural number nearest to a quotient; a half goes to the even neighbour. -/
def roundDiv (num den : Nat) : Nat :=
  let q := num / den
  let r := num % den
  if 2 * r < den then q
  else if den < 2 * r then q + 1
  else q + q % 2

/-- The exponent at which a positive quotient has a mantissa of 53 bits, or the least exponent. -/
def scaleExponent (num den : Nat) : Int :=
  let e := (num.log2 : Int) - den.log2 - 52
  -- the quotient of the powers of two may be one binary place too large
  let low := den * Nat.pow 2 e.toNat * leadingBit
  let e := if num * Nat.pow 2 (-e).toNat < low then e - 1 else e
  max e (-1074)

/-- The double nearest to a quotient of natural numbers. -/
def ofFraction (negative : Bool) (num den : Nat) : Double :=
  if num == 0 then zero negative
  else
    let e := scaleExponent num den
    let m := roundDiv (num * Nat.pow 2 (-e).toNat) (den * Nat.pow 2 e.toNat)
    let (m, e) := if m == 2 * leadingBit then (leadingBit, e + 1) else (m, e)
    if m < leadingBit then ofFields negative 0 m
    else if e > 971 then infinity negative
    else ofFields negative (e + 1075).toNat (m - leadingBit)

/-- The double nearest to `± coefficient * 10 ^ power`. -/
def ofDecimal (negative : Bool) (coefficient : Nat) (power : Int) : Double :=
  -- beyond these powers every non-zero coefficient of so many digits is infinite or zero
  let width := (Nat.toDigits 10 coefficient).length
  if coefficient == 0 then zero negative
  else if power > 400 then infinity negative
  else if power + width < -400 then zero negative
  else ofFraction negative (coefficient * Nat.pow 10 power.toNat) (Nat.pow 10 (-power).toNat)

/-- The double nearest to an integer. -/
def ofInt (n : Int) : Double :=
  ofFraction (n < 0) n.natAbs 1

/-! ### Integers -/

/-- A finite double without its fractional part. -/
def truncate (x : Double) : Int :=
  let (num, den) := x.fraction
  let n : Int := (num / den : Nat)
  if x.isNegative then -n else n

/-- The integer that a double is equal to. -/
def toInt? (x : Double) : Option Int :=
  let (num, den) := x.fraction
  if x.isFinite && num % den == 0 then some x.truncate else none

/-- How a double compares with an integer; a not-a-number code compares with none. -/
def compareInt? (x : Double) (n : Int) : Option Ordering :=
  if x.isNaN then none
  else if x.isInfinite then some (if x.isNegative then .lt else .gt)
  else
    let (num, den) := x.fraction
    let signed : Int := if x.isNegative then -(num : Int) else num
    some (compare signed (n * den))

/-! ### Arithmetic -/

/-- The sum of two doubles, rounded. -/
def add (x y : Double) : Double :=
  if x.isNaN || y.isNaN then indefinite
  else if x.isInfinite then
    if y.isInfinite && x.isNegative != y.isNegative then indefinite else x
  else if y.isInfinite then y
  else
    let (xn, xd) := x.fraction
    let (yn, yd) := y.fraction
    let signed (neg : Bool) (n : Nat) : Int := if neg then -(n : Int) else n
    let num := signed x.isNegative xn * yd + signed y.isNegative yn * xd
    if num == 0 then zero (x.isNegative && y.isNegative)
    else ofFraction (num < 0) num.natAbs (xd * yd)

/-- The product of two doubles, rounded. -/
def mul (x y : Double) : Double :=
  let negative := x.isNegative != y.isNegative
  if x.isNaN || y.isNaN then indefinite
  else if x.isInfinite || y.isInfinite then
    if x.isZero || y.isZero then indefinite else infinity negative
  else
    let (xn, xd) := x.fraction
    let (yn, yd) := y.fraction
    ofFraction negative (xn * yn) (xd * yd)

end Double

end NodeScript
