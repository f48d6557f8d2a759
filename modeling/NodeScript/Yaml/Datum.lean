import NodeScript.Text.Casing
import NodeScript.Value.Access
import NodeScript.Yaml.Node

/-!
# Values of scalars

The values that YAML scalars of the various kinds stand for: truth values, integers and doubles in
several bases, dates and moments, octets in base 64, texts.
-/

namespace NodeScript.Yaml

/-! ### Numbers and times -/

/-- A text without underscores. -/
def dropBars (s : String) : String :=
  String.ofList (s.toList.filter (· != '_'))

/-- Splits off the sign of a number, which must have a character. -/
def signOf (cs : List Char) : Except Fault (Bool × List Char) :=
  match cs with
  | [] => .error .outOfRange
  | '-' :: rest => .ok (true, rest)
  | '+' :: rest => .ok (false, rest)
  | cs => .ok (false, cs)

/-- The integer that a scalar stands for. -/
def intOfScalar (s : String) : Except Fault Int := do
  let (negative, cs) ← signOf (dropBars s).toList
  let n ← match cs with
    | [] => throw .outOfRange
    | ['0'] => pure 0
    | '0' :: 'b' :: rest => Value.integerOfText 2 (String.ofList rest)
    | '0' :: 'x' :: rest => Value.integerOfText 16 (String.ofList rest)
    | '0' :: _ => Value.integerOfText 8 (String.ofList cs)
    | _ =>
      if cs.contains ':' then do
        let parts ← (ScalarKind.splitColons cs).mapM fun p =>
          Value.integerOfText 10 (String.ofList p)
        pure (parts.foldl (fun n p => n * 60 + p) 0)
      else Value.integerOfText 10 (String.ofList cs)
  return if negative then -n else n

/-- The double that a text stands for. -/
def realOfText (s : String) : Except Fault Double :=
  match Reading.real? s with
  | some x => .ok x
  | none => .error (.notAReal s)

/-- Adds the parts of a number in base sixty to a sum, the first of them with the given weight. A
weight must have a double. -/
def sumSixtieths (sum : Double) (weight : Int) : List Double → Except Fault Double
  | [] => .ok sum
  | x :: rest =>
    let w := Double.ofInt weight
    if w.isInfinite then .error .tooLarge
    else sumSixtieths (sum.add (x.mul w)) (weight * 60) rest

/-- The double that a scalar stands for. The constant for not-a-number has no sign. -/
def realOfScalar (s : String) : Except Fault Double := do
  let (negative, cs) ← signOf (Text.lower (dropBars s)).toList
  let word := String.ofList cs
  if word == ".nan" then return Double.nan
  let x ←
    if word == ".inf" then pure (Double.infinity false)
    else if cs.contains ':' then do
      let parts ← (ScalarKind.splitColons cs).mapM fun p => realOfText (String.ofList p)
      sumSixtieths (Double.zero false) 1 parts.reverse
    else realOfText word
  return if negative then x.negate else x

/-- The truth value that a scalar stands for. -/
def boolOfScalar (s : String) : Except Fault Bool :=
  let word := Text.lower s
  match ScalarKind.boolWords.lookup word with
  | some b => .ok b
  | none => .error (.missingKey (.text word))

/-- The number that decimal digits denote. -/
def numberOfDigits (cs : List Char) : Nat :=
  Text.ofDigits 10 (cs.map fun c => c.toNat - 0x30)

/-- The distance from universal time in seconds. -/
def offsetSeconds (sign : Char) (hours minutes : List Char) : Int :=
  let n : Int := numberOfDigits hours * 3600 + numberOfDigits minutes * 60
  if sign == '-' then -n else n

/-- The microseconds of a fraction of a second. -/
def microsOf (fraction : List Char) : Nat :=
  let ds := fraction.take 6
  numberOfDigits (ds ++ List.replicate (6 - ds.length) '0')

/-- The date or moment that a scalar stands for. -/
def timeOfScalar (s : String) : Except Fault Value := do
  match ScalarKind.timeParts? (ScalarKind.dropFinalBreak s.toList) with
  | none => throw .noOperation
  | some p =>
    let year := numberOfDigits p.year
    let month := numberOfDigits p.month
    let day := numberOfDigits p.day
    match p.clock with
    | none => return .date (← (Date.make year month day).mapError .calendar)
    | some (hour, minute, second) =>
      let offset := match p.offset with
        | some (sign, hours, minutes) => some (offsetSeconds sign hours minutes)
        | none => if p.zulu then some 0 else none
      let moment := Moment.make year month day (numberOfDigits hour) (numberOfDigits minute)
        (numberOfDigits second) (microsOf p.fraction) offset
      return .moment (← moment.mapError .calendar)

/-! ### Octets -/

/-- The value of a digit of base 64. -/
def digit64? (c : Char) : Option Nat :=
  if 'A' ≤ c && c ≤ 'Z' then some (c.toNat - 0x41)
  else if 'a' ≤ c && c ≤ 'z' then some (c.toNat - 0x61 + 26)
  else if '0' ≤ c && c ≤ '9' then some (c.toNat - 0x30 + 52)
  else if c == '+' then some 62
  else if c == '/' then some 63
  else none

/-- The octets that digits of base 64 stand for. `place` counts the digits of a group of four,
`held` the bits that are left of the digit before, `pads` the padding so far. Other characters are
skipped, and the padding of a group ends the text. -/
def octets64? (place held pads : Nat) : List Char → Option (List UInt8)
  | [] => if place == 0 then some [] else none
  | c :: rest =>
    if c == '=' then
      if 2 ≤ place then
        if 4 ≤ place + (pads + 1) then some [] else octets64? place held (pads + 1) rest
      else octets64? place held pads rest
    else
      match digit64? c with
      | none => octets64? place held pads rest
      | some d =>
        match place with
        | 0 => octets64? 1 d 0 rest
        | 1 => (octets64? 2 (d % 16) 0 rest).map (UInt8.ofNat (held * 4 + d / 16) :: ·)
        | 2 => (octets64? 3 (d % 4) 0 rest).map (UInt8.ofNat (held * 16 + d / 4) :: ·)
        | _ => (octets64? 0 0 0 rest).map (UInt8.ofNat (held * 64 + d) :: ·)

/-- The octets that a scalar stands for. -/
def octetsOfScalar (s : String) : Except Stop Value :=
  match s.toList.all (·.toNat < 0x80), octets64? 0 0 0 s.toList with
  | true, some octets => .ok (.octets octets)
  | _, _ => .error .invalid

/-- The value that a scalar with a tag stands for. -/
def scalarValue (tag : Tag) (s : String) : Except Stop Value :=
  let checked (r : Except Fault Value) : Except Stop Value := r.mapError .fault
  match tag with
  | .scalar .bool => checked ((boolOfScalar s).map .bool)
  | .scalar .float => checked ((realOfScalar s).map .real)
  | .scalar .int => checked ((intOfScalar s).map .int)
  | .scalar .null => .ok .null
  | .scalar .timestamp => checked (timeOfScalar s)
  | .scalar .text => .ok (.text s)
  | .binary => octetsOfScalar s
  | _ => .error .invalid

end NodeScript.Yaml
