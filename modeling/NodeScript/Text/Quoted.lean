import NodeScript.Text.Hex
import NodeScript.Text.Printable

/-!
# Quoted text

A quoted text shows where a text begins and ends and makes its invisible characters visible. The
quote is an apostrophe unless the text holds an apostrophe and no double quote. Backslashes, the
quote itself and unprintable characters are escaped.
-/

namespace NodeScript.Text

/-- The numeric escape of a character, of the least of three widths. -/
def numericEscape (c : Char) : List Char :=
  if c.toNat < 0x100 then '\\' :: 'x' :: hexChars 2 c.toNat
  else if c.toNat < 0x10000 then '\\' :: 'u' :: hexChars 4 c.toNat
  else '\\' :: 'U' :: hexChars 8 c.toNat

/-- A character inside quotes; `shown` tells which characters need no numeric escape. -/
def escapeWith (shown : Char → Bool) (quote c : Char) : List Char :=
  if c == quote || c == '\\' then ['\\', c]
  else if c == '\t' then ['\\', 't']
  else if c == '\n' then ['\\', 'n']
  else if c == '\r' then ['\\', 'r']
  else if shown c then [c]
  else numericEscape c

/-- The quote that a text is written with. -/
def quoteFor (cs : List Char) : Char :=
  if cs.contains '\'' && !cs.contains '"' then '"' else '\''

/-- The quoted form of a text, given the characters that need no numeric escape. -/
def quotedWith (shown : Char → Bool) (s : String) : String :=
  let quote := quoteFor s.toList
  String.ofList ([quote] ++ s.toList.flatMap (escapeWith shown quote) ++ [quote])

/-- The quoted form of a text. -/
def quoted (s : String) : String :=
  quotedWith isPrintable s

/-- The quoted form of a text in ASCII characters only. -/
def quotedAscii (s : String) : String :=
  quotedWith (fun c => isPrintable c && c.toNat < 0x80) s

/-- The quoted form of a sequence of octets, marked with a leading `b`. -/
def quotedOctets (octets : List UInt8) : String :=
  "b" ++ quotedAscii (String.ofList (octets.map fun o => Char.ofNat o.toNat))

end NodeScript.Text
