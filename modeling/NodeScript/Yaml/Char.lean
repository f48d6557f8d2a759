/-!
# Characters of YAML texts

The classes of characters that the rules of YAML speak of. The end of the input is treated as a
character of its own, which no readable text holds.
-/

namespace NodeScript.Yaml

/-- Stands for the end of the input. -/
def endMark : Char := '\x00'

/-- Whether a character ends a line. -/
def isBreak (c : Char) : Bool :=
  c == '\n' || c == '\r' || c == '\u0085' || c == '\u2028' || c == '\u2029'

/-- Whether a line or the input ends. -/
def isBreakOrEnd (c : Char) : Bool :=
  isBreak c || c == endMark

/-- Whether a space, a line break or the end stands here. -/
def isSpaceOrEnd (c : Char) : Bool :=
  isBreakOrEnd c || c == ' '

/-- Whether a space, a tab, a line break or the end stands here. -/
def isGapOrEnd (c : Char) : Bool :=
  isSpaceOrEnd c || c == '\t'

/-- Whether a character is a letter, a digit, a hyphen or an underscore. -/
def isWordChar (c : Char) : Bool :=
  c.isAlphanum || c == '-' || c == '_'

/-- Whether a character may stand in a YAML text. -/
def isReadable (c : Char) : Bool :=
  let n := c.toNat
  n == 0x09 || n == 0x0a || n == 0x0d || (0x20 ≤ n && n ≤ 0x7e) || n == 0x85 ||
    (0xa0 ≤ n && n ≤ 0xfffd) || 0x10000 ≤ n

/-- Whether a character divides lines in a quoted text that is being written. -/
def isFoldable (c : Char) : Bool :=
  c == '\n' || c == '\u0085' || c == '\u2028' || c == '\u2029'

end NodeScript.Yaml
