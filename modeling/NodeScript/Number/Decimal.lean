import NodeScript.Number.Double

/-!
# Decimals

A decimal is a row of digits with a place for the point. A fraction is rounded to a decimal with a
number of significant digits or a number of places, half to even. A decimal is set out either with
its point, or with one digit before the point and a power of ten.
-/

namespace NodeScript

/-- A decimal `0.d₁d₂… * 10 ^ point`, given by its digits. -/
structure Decimal where
  digits : List Char
  point : Int

namespace Decimal

/-- The decimal zero. -/
def zero : Decimal := ⟨['0'], 1⟩

/-- A decimal without the zeros at its end. -/
def trim (d : Decimal) : Decimal :=
  { d with digits := (d.digits.reverse.dropWhile (· == '0')).reverse }

/-- The number of digits before the point of a positive fraction, or minus the number of zeros that
follow the point. -/
def pointOf (num den : Nat) : Int :=
  if den ≤ num then (Nat.toDigits 10 (num / den)).length
  else
    let zeros := (List.range 400).find? (fun k => den ≤ num * Nat.pow 10 (k + 1))
    Int.negOfNat (zeros.getD 0)

/-- A fraction rounded to a number of significant digits, without zeros at the end. -/
def ofFraction (num den count : Nat) : Decimal :=
  if num == 0 then zero
  else
    let point := pointOf num den
    let power := point - count
    let c := Double.roundDiv (num * Nat.pow 10 (-power).toNat) (den * Nat.pow 10 power.toNat)
    -- rounding up may have made one more digit
    let digits := Nat.toDigits 10 c
    trim ⟨digits, point + ((digits.length : Int) - count)⟩

/-- A fraction rounded to a number of places after the point. -/
def ofPlaces (num den places : Nat) : Decimal :=
  let digits := Nat.toDigits 10 (Double.roundDiv (num * Nat.pow 10 places) den)
  ⟨digits, (digits.length : Int) - places⟩

/-! ### Setting out -/

/-- Digits with zeros after them, up to a length. -/
def padZeros (length : Nat) (digits : List Char) : List Char :=
  digits ++ List.replicate (length - digits.length) '0'

/-- The digits before the point and those after it, at least `places` of them. -/
def positional (d : Decimal) (places : Nat) : List Char × List Char :=
  if d.point ≤ 0 then
    (['0'], padZeros places (List.replicate (-d.point).toNat '0' ++ d.digits))
  else
    let whole := d.point.toNat
    (padZeros whole (d.digits.take whole), padZeros places (d.digits.drop whole))

/-- The text of a power of ten: a sign and at least two digits. -/
def powerChars (e : Int) : List Char :=
  let digits := Nat.toDigits 10 e.natAbs
  (if e < 0 then '-' else '+') :: List.replicate (2 - digits.length) '0' ++ digits

end Decimal

end NodeScript
