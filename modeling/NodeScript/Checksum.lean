/-!
# Checksums

The 64-bit cyclic redundancy check with the reflected polynomial `x^64 + x^4 + x^3 + x + 1`: the
register starts with all bits set, takes the octets from the low end, and is inverted at the end.
A table holds what eight bit steps do to each octet.
-/

namespace NodeScript.Checksum

/-- The reflected polynomial. -/
def polynomial : UInt64 := 0xD800000000000000

/-- Shifts the register by one bit. -/
def bitStep (r : UInt64) : UInt64 :=
  if r &&& 1 == 1 then (r >>> 1) ^^^ polynomial else r >>> 1

/-- Shifts the register by some bits. -/
def bitSteps : Nat → UInt64 → UInt64
  | 0, r => r
  | n + 1, r => bitSteps n (bitStep r)

/-- What eight steps make of each octet. -/
def table : Array UInt64 :=
  Array.ofFn fun i : Fin 256 => bitSteps 8 (UInt64.ofNat i.val)

/-- Takes one octet into the register, by the table. -/
def octetStep (r : UInt64) (octet : UInt8) : UInt64 :=
  let index := ((r ^^^ octet.toUInt64) &&& 0xff).toNat
  table.getD index 0 ^^^ (r >>> 8)

/-- The checksum of a sequence of octets. -/
def ofOctets (octets : List UInt8) : UInt64 :=
  octets.foldl octetStep 0xFFFFFFFFFFFFFFFF ^^^ 0xFFFFFFFFFFFFFFFF

/-- The checksum of the UTF-8 form of a text. -/
def ofText (s : String) : UInt64 :=
  ofOctets s.toUTF8.toList

end NodeScript.Checksum
