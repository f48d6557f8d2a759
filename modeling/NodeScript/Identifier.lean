import NodeScript.Fault
import NodeScript.Text.Casing

/-!
# Identifiers

The identifier of a definition comes from its name: words divided by hyphens, underscores, spaces
and points are joined, each after the first with a capital, and only ASCII letters and digits stay.
An identifier that would begin with a digit, or be empty, gets an underscore.
-/

namespace NodeScript.Identifier

/-- Whether a character divides words. -/
def isSeparator (c : Char) : Bool :=
  c == '-' || c == '_' || c == ' ' || c == '.'

/-- Adds a character to the first word. -/
def extendFirst (c : Char) : List (List Char) → List (List Char)
  | [] => [[c]]
  | w :: ws => (c :: w) :: ws

/-- The parts between separators, some of which may be empty. -/
def parts : List Char → List (List Char)
  | [] => [[]]
  | c :: rest => if isSeparator c then [] :: parts rest else extendFirst c (parts rest)

/-- The words of a name. -/
def words (cs : List Char) : List (List Char) :=
  (parts cs).filter fun w => !w.isEmpty

/-- A word with a capital. -/
def capitalize : List Char → List Char
  | [] => []
  | c :: rest => Text.upperChar c ++ rest

/-- Whether a character stays in an identifier. -/
def isKept (c : Char) : Bool :=
  c.isAlphanum || c == '_'

/-- Puts an underscore where an identifier would be empty or begin with a digit. -/
def guardStart : List Char → List Char
  | [] => ['_']
  | c :: rest => if c.isDigit then '_' :: c :: rest else c :: rest

/-- The identifier of a name, as characters. -/
def ofChars (cs : List Char) : List Char :=
  match words cs with
  | [] => ['_']
  | w :: ws => guardStart ((w ++ (ws.map capitalize).flatten).filter isKept)

/-- The identifier of a name. -/
def ofName (s : String) : String :=
  String.ofList (ofChars s.toList)

/-- The identifier of a name that must be a text. -/
def ofValue : Value → Except Fault String
  | .text s => .ok (ofName s)
  | _ => .error .wrongKind

end NodeScript.Identifier
