import NodeScript.Number.Numeral
import NodeScript.Text.Quoted
import NodeScript.Value.Basic

/-!
# Text of values

`Value.quoted` is the form of a value inside a list or a message: texts stand in quotes. A value on
its own is written by `Value.render`, which shows texts, dates and moments plainly.
-/

namespace NodeScript.Value

/-- Items between brackets, divided by commas. -/
def enclose (left right : String) (items : List String) : String :=
  left ++ ", ".intercalate items ++ right

mutual

/-- The form of a value inside other values. -/
def quoted : Value → String
  | .null => "None"
  | .bool b => if b then "True" else "False"
  | .int n => toString n
  | .real x => x.render
  | .text s => Text.quoted s
  | .octets bytes => Text.quotedOctets bytes
  | .date d => d.describe
  | .moment t => t.describe
  | .list items => enclose "[" "]" (quotedItems items)
  | .tuple [item] => enclose "(" ",)" [item.quoted]
  | .tuple items => enclose "(" ")" (quotedItems items)
  | .set [] => "set()"
  | .set items => enclose "\x7b" "\x7d" (quotedItems items)
  | .table entries => enclose "\x7b" "\x7d" (quotedEntries entries)
  | .foreign label => "<opaque " ++ label ++ ">"
  | .loop .list _ => "[...]"
  | .loop .table _ => "\x7b...\x7d"

/-- The forms of some items. -/
def quotedItems : List Value → List String
  | [] => []
  | x :: xs => x.quoted :: quotedItems xs

/-- The forms of some entries, key and value divided by a colon. -/
def quotedEntries : List (Value × Value) → List String
  | [] => []
  | (k, v) :: rest => (k.quoted ++ ": " ++ v.quoted) :: quotedEntries rest

end

/-- The text of a value on its own. -/
def render : Value → String
  | .text s => s
  | .date d => d.render
  | .moment t => t.render
  | v => v.quoted

/-! ### Long integers -/

/-- The least positive integer that has too many digits to be written. -/
def longInteger : Nat := Nat.pow 10 4300

mutual

/-- Whether an integer in a value has too many digits to be written. -/
def hasLongInteger : Value → Bool
  | .int n => longInteger ≤ n.natAbs
  | .list items => anyLongInteger items
  | .tuple items => anyLongInteger items
  | .set items => anyLongInteger items
  | .table entries => anyLongEntry entries
  | _ => false

/-- Whether an integer in some items has too many digits to be written. -/
def anyLongInteger : List Value → Bool
  | [] => false
  | x :: xs => x.hasLongInteger || anyLongInteger xs

/-- Whether an integer in some entries has too many digits to be written. -/
def anyLongEntry : List (Value × Value) → Bool
  | [] => false
  | (k, v) :: rest => k.hasLongInteger || v.hasLongInteger || anyLongEntry rest

end

end NodeScript.Value
