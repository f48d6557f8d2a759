import NodeScript.Text.CharSet

/-!
# Blank characters

Blanks are the characters that carry no ink: the ASCII white space and information separators,
the next-line control and the space, line and paragraph separators of the Unicode standard.
Values typed into an editor lose the blanks at both ends.
-/

namespace NodeScript.Text

/-- The blank characters. -/
def blanks : CharSet where
  ranges := [
    (0x9, 0xd), (0x1c, 0x20), (0x85, 0x85), (0xa0, 0xa0), (0x1680, 0x1680), (0x2000, 0x200a),
    (0x2028, 0x2029), (0x202f, 0x202f), (0x205f, 0x205f), (0x3000, 0x3000)]

/-- Whether a character is blank. -/
def isBlank (c : Char) : Bool :=
  blanks.contains c

/-- Drops the blanks at both ends. -/
def trimChars (cs : List Char) : List Char :=
  ((cs.dropWhile isBlank).reverse.dropWhile isBlank).reverse

/-- The text without the blanks at both ends. -/
def trim (s : String) : String :=
  String.ofList (trimChars s.toList)

end NodeScript.Text
