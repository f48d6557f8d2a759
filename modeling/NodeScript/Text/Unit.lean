import NodeScript.Text.Hex

/-!
# Units of 16 bits

Escapes of four hexadecimal digits name units of 16 bits. A character beyond the first 65536 takes
two units, a high one and a low one; neither of them is a character on its own.
-/

namespace NodeScript.Text

/-- The number of four hexadecimal digits. -/
def unit? (a b c d : Char) : Option Nat := do
  let digits ← [a, b, c, d].mapM hexValue?
  some (ofDigits 16 digits)

/-- Whether a unit is the first of two. -/
def isHighUnit (n : Nat) : Bool := 0xd800 ≤ n && n < 0xdc00

/-- Whether a unit is the second of two. -/
def isLowUnit (n : Nat) : Bool := 0xdc00 ≤ n && n < 0xe000

/-- The character that two units make. -/
def charOfPair (high low : Nat) : Char :=
  Char.ofNat (0x10000 + (high - 0xd800) * 0x400 + (low - 0xdc00))

/-- The character with a number. A unit without its partner gives the replacement character. -/
def charOfUnit (n : Nat) : Char :=
  if isHighUnit n || isLowUnit n then '\ufffd' else Char.ofNat n

/-- The characters that numbers stand for: two units together, or one number on its own. -/
def joinUnits : List Nat → List Char
  | [] => []
  | [n] => [charOfUnit n]
  | n :: m :: rest =>
    if isHighUnit n && isLowUnit m then charOfPair n m :: joinUnits rest
    else charOfUnit n :: joinUnits (m :: rest)

/-- Whether no unit lacks its partner. -/
def paired : List Nat → Bool
  | [] => true
  | [n] => !(isHighUnit n || isLowUnit n)
  | n :: m :: rest =>
    if isHighUnit n && isLowUnit m then paired rest
    else !(isHighUnit n || isLowUnit n) && paired (m :: rest)

end NodeScript.Text
