import NodeScript.Failure
import NodeScript.Text.Hex
import NodeScript.Value.Access

/-!
# Writing JSON

Values as compact JSON: no blanks, tuples as arrays, keys that are numbers or truth values as their
text. Numbers that JSON does not have are written by their names. A style says whether characters
beyond ASCII are written as they are or by escapes, and how many digits an integer may have. There
may be a bound on how deep containers are nested.
-/

namespace NodeScript.Json

/-- The free choices of a JSON text. -/
structure Style where
  /-- Whether characters beyond ASCII are escaped. -/
  asciiOnly : Bool
  /-- The greatest number of digits of an integer. -/
  digits : Option Nat := none

/-- Characters beyond ASCII are written as they are, and integers within the limit on decimal
numerals. -/
def Style.plain : Style where
  asciiOnly := false
  digits := some Reading.digitLimit

/-- Only ASCII characters are written. -/
def Style.ascii : Style where
  asciiOnly := true

/-- The escape of one 16-bit unit. -/
def escapeUnit (n : Nat) : List Char :=
  '\\' :: 'u' :: Text.hexChars 4 n

/-- The escape of a character by its number, in two units beyond the first 65536. -/
def escapeNumber (c : Char) : List Char :=
  if c.toNat < 0x10000 then escapeUnit c.toNat
  else
    let n := c.toNat - 0x10000
    escapeUnit (0xd800 + n / 0x400) ++ escapeUnit (0xdc00 + n % 0x400)

/-- A character inside a JSON text. -/
def Style.escape (style : Style) (c : Char) : List Char :=
  if c == '"' then ['\\', '"']
  else if c == '\\' then ['\\', '\\']
  else if c == '\n' then ['\\', 'n']
  else if c == '\r' then ['\\', 'r']
  else if c == '\t' then ['\\', 't']
  else if c == '\x08' then ['\\', 'b']
  else if c == '\x0c' then ['\\', 'f']
  else if c.toNat < 0x20 || (style.asciiOnly && 0x7e < c.toNat) then escapeNumber c
  else [c]

/-- A text in quotes. -/
def Style.quote (style : Style) (s : String) : String :=
  String.ofList ('"' :: s.toList.flatMap style.escape ++ ['"'])

/-- The text of a double. -/
def realText (x : Double) : String :=
  if x.isNaN then "NaN"
  else if x.isInfinite then (if x.isNegative then "-Infinity" else "Infinity")
  else x.render

/-- The text of an integer. -/
def Style.integer (style : Style) (n : Int) : Except WriteFault String :=
  if style.digits.any (Nat.pow 10 · ≤ n.natAbs) then .error .longInteger else .ok (toString n)

/-- The text of a value as a key. -/
def keyText (style : Style) : Value → Except WriteFault String
  | .text s => .ok s
  | .null => .ok "null"
  | .bool b => .ok (if b then "true" else "false")
  | .int n => style.integer n
  | .real x => .ok (realText x)
  | v => .error (.keyJson v.kindName)

/-- Goes into a container, which leaves room for one level less. -/
def enter : (room : Nat) → Except WriteFault Nat
  | 0 => .error .tooNested
  | room + 1 => .ok room

mutual

/-- The JSON text of a value with room for containers nested `room` deep. -/
def writeValue (style : Style) (room : Nat) : Value → Except WriteFault String
  | .null => .ok "null"
  | .bool b => .ok (if b then "true" else "false")
  | .int n => style.integer n
  | .real x => .ok (realText x)
  | .text s => .ok (style.quote s)
  | .list items => do
    let parts ← writeItems style (← enter room) items
    return "[" ++ ",".intercalate parts ++ "]"
  | .tuple items => do
    let parts ← writeItems style (← enter room) items
    return "[" ++ ",".intercalate parts ++ "]"
  | .table entries => do
    let parts ← writeEntries style (← enter room) entries
    return "\x7b" ++ ",".intercalate parts ++ "\x7d"
  | .loop _ _ => .error .circular
  | .octets _ | .date _ | .moment _ | .set _ | .foreign _ => .error .foreignJson

/-- The JSON texts of some items. -/
def writeItems (style : Style) (room : Nat) : List Value → Except WriteFault (List String)
  | [] => .ok []
  | v :: rest => do
    let part ← writeValue style room v
    let parts ← writeItems style room rest
    return part :: parts

/-- The JSON texts of some entries. -/
def writeEntries (style : Style) (room : Nat) :
    List (Value × Value) → Except WriteFault (List String)
  | [] => .ok []
  | (k, v) :: rest => do
    let key ← keyText style k
    let part ← writeValue style room v
    let parts ← writeEntries style room rest
    return (style.quote key ++ ":" ++ part) :: parts

end

/-- The JSON text of a value. Where no bound on the room is given, there is room for any value. -/
def write (style : Style) (v : Value) (room : Option Nat := none) : Except WriteFault String :=
  writeValue style (room.getD v.height) v

end NodeScript.Json
