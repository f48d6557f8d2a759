/-!
# Hexadecimal numerals

Numerals of a least width, padded with zeros on the left, in lower and in upper case.
-/

namespace NodeScript.Text

/-- Pads a numeral on the left to a least width. -/
def padLeft (fill : Char) (width : Nat) (cs : List Char) : List Char :=
  List.replicate (width - cs.length) fill ++ cs

/-- The lower case hexadecimal numeral of at least `width` digits. -/
def hexChars (width n : Nat) : List Char :=
  padLeft '0' width (Nat.toDigits 16 n)

/-- The upper case hexadecimal numeral of at least `width` digits. -/
def upperHexChars (width n : Nat) : List Char :=
  (hexChars width n).map Char.toUpper

/-- The decimal numeral of at least `width` digits. -/
def decimalChars (width n : Nat) : List Char :=
  padLeft '0' width (Nat.toDigits 10 n)

/-- The value of a hexadecimal digit of either case. -/
def hexValue? (c : Char) : Option Nat :=
  if '0' ≤ c && c ≤ '9' then some (c.toNat - 0x30)
  else if 'a' ≤ c && c ≤ 'f' then some (c.toNat - 0x57)
  else if 'A' ≤ c && c ≤ 'F' then some (c.toNat - 0x37)
  else none

/-- The number that a list of digit values denotes, most significant digit first. -/
def ofDigits (base : Nat) (digits : List Nat) : Nat :=
  digits.foldl (fun n d => n * base + d) 0

end NodeScript.Text
