import NodeScript.Text.Casing
import NodeScript.Value.Access

/-!
# Log levels

The severities of log messages, in the order of growing verbosity. A level is written as a code, as
a numeral or as a name, with or without the word `LOG_` in front of it.
-/

namespace NodeScript

/-- Log severities, ascending in verbosity; `inherit` leaves the level to the caller. -/
inductive LogLevel where
  | disable
  | error
  | warn
  | info
  | debug
  | inherit
deriving DecidableEq, Inhabited

namespace LogLevel

/-- All levels, by code. -/
def all : List LogLevel :=
  [.disable, .error, .warn, .info, .debug, .inherit]

/-- The code of a level. -/
def code : LogLevel → Nat
  | .disable => 0
  | .error => 1
  | .warn => 2
  | .info => 3
  | .debug => 4
  | .inherit => 5

/-- The name of a level. -/
def name : LogLevel → String
  | .disable => "DISABLE"
  | .error => "ERROR"
  | .warn => "WARN"
  | .info => "INFO"
  | .debug => "DEBUG"
  | .inherit => "INHERIT"

/-- The level with a name. -/
def ofName? (s : String) : Option LogLevel :=
  all.find? fun l => l.name == s

/-- The level whose code a value is. -/
def ofValue (v : Value) : Except Fault LogLevel :=
  match all.find? fun l => Value.same v (.int l.code) with
  | some l => .ok l
  | none => .error (.notALevel v)

/-- Drops the word that may stand before the name of a level. -/
def dropWord (s : String) : String :=
  match s.toList with
  | 'L' :: 'O' :: 'G' :: '_' :: rest => String.ofList rest
  | _ => s

/-- Whether a text is to be read as a numeral: digits after any number of minus signs. -/
def isCode (s : String) : Bool :=
  Text.isNumeral (String.ofList ((Text.trimChars s.toList).dropWhile (· == '-')))

/-- The level that a value denotes; a missing value denotes the default. -/
def parse (v : Value) (default : LogLevel) : Except Fault LogLevel :=
  let byCode : Except Fault LogLevel := do
    let n ← v.toInteger
    ofValue (.int n)
  match v with
  | .null => .ok default
  | .text s =>
    if s.isEmpty then .ok default
    else if isCode s then byCode
    else
      let name := dropWord (Text.upper (Text.trim s))
      match ofName? name with
      | some l => .ok l
      | none => .error (.missingKey (.text name))
  | _ => byCode

end LogLevel

end NodeScript
