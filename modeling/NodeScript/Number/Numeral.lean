import NodeScript.Number.Shortest

/-!
# Numerals of doubles

A style says how many digits of a double are written and where its point stands. By itself a double
is written by its shortest decimal: from `10 ^ -4` up to `10 ^ 16` with a point and at least one
digit after it, otherwise with a power of ten.
-/

namespace NodeScript

/-- A written number: the digits before its point, and all that follows them. -/
structure Numeral where
  whole : List Char
  rest : List Char

/-- Ways to write a double. -/
inductive RealStyle where
  /-- The fewest digits that read back. -/
  | shortest
  /-- A number of places after the point. -/
  | fixed (places : Nat)
  /-- One digit, a number of places after the point, and a power of ten. -/
  | scientific (places : Nat)
  /-- At most so many significant digits, with a power of ten where they do not reach the point.
  `pointed` asks for a digit after the point. -/
  | general (digits : Nat) (pointed : Bool)

namespace Decimal

/-- The part of a numeral that begins with the point; `keep` writes a point that ends it. -/
def fractionChars (keep : Bool) (digits : List Char) : List Char :=
  if digits.isEmpty && !keep then [] else '.' :: digits

/-- A decimal with its point. -/
def withPoint (d : Decimal) (places : Nat) (keep : Bool) : Numeral :=
  let (whole, fraction) := d.positional places
  ⟨whole, fractionChars keep fraction⟩

/-- A decimal with one digit before its point and a power of ten. -/
def withPower (d : Decimal) (places : Nat) (keep : Bool) : Numeral :=
  let (whole, fraction) := positional ⟨d.digits, 1⟩ places
  ⟨whole, fractionChars keep fraction ++ 'e' :: powerChars (d.point - 1)⟩

/-- A decimal of which `count` digits are written, with a power of ten if its point is not among
the first `reach` digits or the zeros before them. -/
def write (d : Decimal) (count reach least : Nat) (keep : Bool) : Numeral :=
  if d.point ≤ -4 || (reach : Int) < d.point then d.withPower (count - 1) keep
  else d.withPoint (max ((count : Int) - d.point).toNat least) keep

end Decimal

namespace Double

/-- The numeral of a finite double, leaving its sign aside. `keep` asks for the point, and in the
general style for all digits. -/
def numeral (style : RealStyle) (keep : Bool) (x : Double) : Numeral :=
  let (num, den) := x.fraction
  match style with
  | .shortest =>
    let d := x.shortest
    d.write d.digits.length 16 1 keep
  | .fixed places => (Decimal.ofPlaces num den places).withPoint places keep
  | .scientific places => (Decimal.ofFraction num den (places + 1)).withPower places keep
  | .general digits pointed =>
    let digits := max digits 1
    let d := Decimal.ofFraction num den digits
    let count := if keep then digits else d.digits.length
    if pointed then d.write count (digits - 1) 1 keep else d.write count digits 0 keep

/-- The text of a double. -/
def render (x : Double) : String :=
  let sign := if x.isNegative then "-" else ""
  if x.isNaN then "nan"
  else if x.isInfinite then sign ++ "inf"
  else
    let n := x.numeral .shortest false
    sign ++ String.ofList (n.whole ++ n.rest)

end Double

end NodeScript
