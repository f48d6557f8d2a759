import NodeScript.Text.Unit

/-!
# Encodings of JSON texts

A JSON text begins with ASCII characters, so that zeros among its first octets tell whether it is
written in units of one, two or four octets, and in which order. Units of two octets, and escapes,
may be halves of characters; a text is whole if each has the other half beside it.
-/

namespace NodeScript.Json

/-- The encodings of a JSON text; `big` tells that the high octet of a unit comes first. -/
inductive Encoding where
  | octets
  | pairs (big : Bool)
  | quads (big : Bool)
deriving DecidableEq

/-- The encoding that the first octets of a text show. -/
def Encoding.ofOctets : List UInt8 → Encoding
  | a :: b :: c :: d :: _ =>
    if a == 0 then (if b == 0 then .quads true else .pairs true)
    else if b == 0 then (if c == 0 && d == 0 then .quads false else .pairs false)
    else .octets
  | [a, b] => if a == 0 then .pairs true else if b == 0 then .pairs false else .octets
  | _ => .octets

/-- The units of two octets of a text. -/
def pairUnits? (big : Bool) : List UInt8 → Option (List Nat)
  | [] => some []
  | a :: b :: rest => do
    let units ← pairUnits? big rest
    let (high, low) := if big then (a, b) else (b, a)
    some ((high.toNat * 0x100 + low.toNat) :: units)
  | _ => none

/-- The units of four octets of a text, each of which is the number of a character. -/
def quadUnits? (big : Bool) : List UInt8 → Option (List Nat)
  | [] => some []
  | a :: b :: c :: d :: rest => do
    let units ← quadUnits? big rest
    let digits := if big then [a, b, c, d] else [d, c, b, a]
    let n := Text.ofDigits 0x100 (digits.map UInt8.toNat)
    if n ≤ 0x10ffff then some (n :: units) else none
  | _ => none

/-- The characters of a JSON text, which is given as it would be read in UTF-8. One byte order mark
in front of them is dropped. -/
def decode? (s : String) : Option (List Char) :=
  let octets := s.toUTF8.toList
  match Encoding.ofOctets octets with
  | .octets =>
    match s.toList with
    | '\ufeff' :: rest => some rest
    | cs => some cs
  | .pairs big => (pairUnits? big octets).map Text.joinUnits
  | .quads big => (quadUnits? big octets).map (·.map Text.charOfUnit)

/-! ### Whole characters -/

/-- The numbers of the characters of a JSON text, escapes by the number that they name. -/
def namedUnits : List Char → List Nat
  | [] => []
  | '\\' :: 'u' :: a :: b :: c :: d :: rest => (Text.unit? a b c d).getD 0 :: namedUnits rest
  | '\\' :: c :: rest => c.toNat :: namedUnits rest
  | c :: rest => c.toNat :: namedUnits rest

/-- Whether a JSON text is made of whole characters: no half of a character stands alone in it,
neither in its encoding nor among its escapes. -/
def isWhole (s : String) : Bool :=
  let octets := s.toUTF8.toList
  let encoded := match Encoding.ofOctets octets with
    | .octets => true
    | .pairs big => (pairUnits? big octets).all Text.paired
    | .quads big => (quadUnits? big octets).all (·.all fun n => Text.paired [n])
  encoded && (decode? s).all fun cs => Text.paired (namedUnits cs)

end NodeScript.Json
