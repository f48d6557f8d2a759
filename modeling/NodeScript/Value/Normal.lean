import NodeScript.Text.Blank
import NodeScript.Value.Access

/-!
# Plain text of values

Two plain forms of a value. A parameter typed into an editor is taken without blanks around it, and
a whole number without its fractional part; a variable of a running script is taken as it is. In
both, a missing value is the empty text and truth values are `true` and `false`.

Not every value can be shown to a running script: integers have a greatest number of digits, and
containers a greatest height.
-/

namespace NodeScript.Value

/-- The text of a parameter value. -/
def normalized : Value → String
  | .null => ""
  | .bool b => if b then "true" else "false"
  | .real x =>
    match x.toInt? with
    | some n => toString n
    | none => x.render
  | v => Text.trim v.render

/-- The greatest height of a value that can be shown. -/
def showLimit : Nat := 980

/-- The text of a value on its own, if it can be shown. -/
def shown (v : Value) : Except Fault String :=
  if v.hasLongInteger then .error .unwritableInteger
  else if showLimit < v.height then .error .tooNested
  else .ok v.render

/-- The text of a variable. -/
def variableText : Value → Except Fault String
  | .null => .ok ""
  | .bool b => .ok (if b then "true" else "false")
  | v => v.shown

end NodeScript.Value
