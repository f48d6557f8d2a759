import NodeScript.Number.Double
import NodeScript.Text.Blank
import NodeScript.Text.Digit
import NodeScript.Text.Hex

/-!
# Reading numbers

Numerals as people type them: blanks around the numeral, a sign, digits of any script, and single
underscores between digits. In a base other than ten the numeral may begin with the mark of its
base.
-/

namespace NodeScript.Reading

/-- The value of a digit or letter as a digit of a base up to 36. -/
def digitIn? (base : Nat) (c : Char) : Option Nat :=
  let value := match Text.digitValue? c with
    | some d => some d
    | none =>
      if 'a' ≤ c && c ≤ 'z' then some (c.toNat - 0x57)
      else if 'A' ≤ c && c ≤ 'Z' then some (c.toNat - 0x37)
      else none
  value.filter (· < base)

/-- The digits at the head of a text, with single underscores between them, and what follows them.
`afterDigit` tells whether an underscore may come next. -/
def leadingDigits? (base : Nat) : (afterDigit : Bool) → List Char → Option (List Nat × List Char)
  | afterDigit, [] => if afterDigit then some ([], []) else none
  | true, '_' :: rest => leadingDigits? base false rest
  | afterDigit, c :: rest =>
    match digitIn? base c with
    | some d => (leadingDigits? base true rest).map fun (ds, tail) => (d :: ds, tail)
    | none => if afterDigit then some ([], c :: rest) else none

/-- Splits off a sign; the flag tells a minus. -/
def splitSign : List Char → Bool × List Char
  | '-' :: rest => (true, rest)
  | '+' :: rest => (false, rest)
  | cs => (false, cs)

/-- Drops the mark of a base, with one underscore after it. -/
def dropBaseMark (base : Nat) : List Char → List Char
  | '0' :: m :: rest =>
    let mark := m.toLower
    if (base == 2 && mark == 'b') || (base == 8 && mark == 'o') || (base == 16 && mark == 'x') then
      match rest with
      | '_' :: rest => rest
      | rest => rest
    else '0' :: m :: rest
  | cs => cs

/-- What a text comes to as an integer numeral. -/
inductive IntegerReading where
  | digits (negative : Bool) (digits : List Nat)
  /-- It begins with more decimal digits than are read. -/
  | tooLong (count : Nat)
  | malformed

/-- The digits that a decimal numeral may have at most. -/
def digitLimit : Nat := 4300

/-- Reads an integer numeral. Decimal digits are counted before what follows them is looked at. -/
def integer (base : Nat) (cs : List Char) : IntegerReading :=
  let (negative, cs) := splitSign (Text.trimChars cs)
  match leadingDigits? base false (dropBaseMark base cs) with
  | none => .malformed
  | some (ds, rest) =>
    if base == 10 && digitLimit < ds.length then .tooLong ds.length
    else if rest.isEmpty then .digits negative ds
    else .malformed

/-- The parts of a decimal fraction: whole digits, digits after the point, exponent. -/
structure RealParts where
  whole : List Nat
  fraction : List Nat
  exponent : Int

/-- The longest run of digits, with single underscores between them, at the head of a text. -/
def digitRun : List Char → List Nat × List Char
  | [] => ([], [])
  | c :: rest =>
    match Text.digitValue? c, rest with
    | none, _ => ([], c :: rest)
    | some d, '_' :: c' :: rest' =>
      if (Text.digitValue? c').isSome then
        let (ds, tail) := digitRun (c' :: rest')
        (d :: ds, tail)
      else ([d], '_' :: c' :: rest')
    | some d, rest =>
      let (ds, tail) := digitRun rest
      (d :: ds, tail)

/-- The exponent part that ends a numeral, or nothing. -/
def exponentPart? : List Char → Option Int
  | [] => some 0
  | e :: rest =>
    if e == 'e' || e == 'E' then
      let (negative, rest) := splitSign rest
      match digitRun rest with
      | ([], _) => none
      | (ds, []) =>
        let n : Int := Text.ofDigits 10 ds
        some (if negative then -n else n)
      | (_, _ :: _) => none
    else none

/-- The parts of a decimal numeral with a point, an exponent, both or neither. -/
def realParts? (cs : List Char) : Option RealParts :=
  let (whole, rest) := digitRun cs
  let (fraction, rest) := match rest with
    | '.' :: rest => digitRun rest
    | rest => ([], rest)
  if whole.isEmpty && fraction.isEmpty then none
  else (exponentPart? rest).map (⟨whole, fraction, ·⟩)

/-- The double nearest to the decimal with the given parts. -/
def RealParts.toDouble (negative : Bool) (p : RealParts) : Double :=
  Double.ofDecimal negative (Text.ofDigits 10 (p.whole ++ p.fraction))
    (p.exponent - p.fraction.length)

/-- Reads a number with a fraction, an infinity or a not-a-number word. -/
def real? (s : String) : Option Double :=
  let (negative, cs) := splitSign (Text.trimChars s.toList)
  let word := String.ofList (cs.map Char.toLower)
  if word == "inf" || word == "infinity" then some (Double.infinity negative)
  else if word == "nan" then some Double.indefinite
  else (realParts? cs).map (·.toDouble negative)

end NodeScript.Reading
