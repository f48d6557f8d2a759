/-!
# Sets of characters

A set of characters is a list of closed ranges of code points. The properties that the text
rules need (blank, digit, printable) are given in this form.
-/

namespace NodeScript

/-- A set of characters, as closed ranges of code points. -/
structure CharSet where
  ranges : List (Nat × Nat)

namespace CharSet

/-- Whether a character lies in one of the ranges. -/
def contains (s : CharSet) (c : Char) : Bool :=
  s.ranges.any fun r => r.1 ≤ c.toNat && c.toNat ≤ r.2

end CharSet

end NodeScript
