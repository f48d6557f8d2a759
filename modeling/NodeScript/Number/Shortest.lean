import NodeScript.Number.Decimal

/-!
# Shortest decimals

The shortest decimal of a double has the fewest significant digits that read back as the same
double, and of those decimals it is the one nearest to the double, a half going to the even digit.
-/

namespace NodeScript.Double

/-- The decimal of `count` digits inside the rounding interval of a positive double that is nearest
to it. -/
def decimalOfLength? (x : Double) (point : Int) (count : Nat) : Option Nat :=
  let e := x.exponent
  let power := point - count
  -- the double, its interval and the grid, all scaled to natural numbers
  let unit := Nat.pow 2 e.toNat * Nat.pow 10 (-power).toNat
  let grid := 4 * Nat.pow 2 (-e).toNat * Nat.pow 10 power.toNat
  let value := 4 * x.mantissa * unit
  let below := if x.fractionField == 0 && x.exponentField > 1 then 1 else 2
  let low := value - below * unit
  let high := value + 2 * unit
  let inside (c : Nat) : Bool :=
    if x.mantissa % 2 == 0 then low ≤ c * grid && c * grid ≤ high
    else low < c * grid && c * grid < high
  let c := value / grid
  match inside c, inside (c + 1) with
  | true, true => some (roundDiv value grid)
  | true, false => some c
  | false, true => some (c + 1)
  | false, false => none

/-- The shortest decimal of a finite double, leaving its sign aside. -/
def shortest (x : Double) : Decimal :=
  if x.isZero then .zero
  else
    let (num, den) := x.fraction
    let point := Decimal.pointOf num den
    let lengths := (List.range 17).map (· + 1)
    match lengths.findSome? fun n => (x.decimalOfLength? point n).map (n, ·) with
    | some (n, c) =>
      let digits := Nat.toDigits 10 c
      Decimal.trim ⟨digits, point + ((digits.length : Int) - n)⟩
    | none => .zero

end NodeScript.Double
