/-!
# Text literals

A text is written between backticks as it is, unless it holds a backtick, a percent sign or a dollar
sign; then it is written between double quotes, with a backslash before each backslash and quote.
-/

namespace NodeScript.Literal

/-- The quote of literals that are taken as they are. -/
def backtick : Char := '\x60'

/-- The characters that may not stand between backticks. -/
def isUnsafe (c : Char) : Bool :=
  c == backtick || c == '%' || c == '$'

/-- A character between double quotes. -/
def escape (c : Char) : List Char :=
  if c == '\\' || c == '"' then ['\\', c] else [c]

/-- The characters of the literal of a text. -/
def renderChars (cs : List Char) : List Char :=
  if cs.any isUnsafe then '"' :: cs.flatMap escape ++ ['"']
  else backtick :: cs ++ [backtick]

/-- The literal of a text. -/
def render (s : String) : String :=
  String.ofList (renderChars s.toList)

end NodeScript.Literal
