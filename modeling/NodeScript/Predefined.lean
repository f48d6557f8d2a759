import NodeScript.Argument
import NodeScript.Yaml.Writer

/-!
# Predefined variables

A definition can bring variables of its own: the texts of its default table, overlaid with those of
the language of the user. Names that begin with an underscore are internal and make no variables.
The variables are written as one YAML text, which the program loads when it enters the definition.
-/

namespace NodeScript.Predefined

/-- Whether a name belongs to the editor and makes no variable. -/
def isInternal (name : String) : Bool :=
  name.toList.head? == some '_'

/-- Writes the variables of a table over others. -/
def overlay (vars : Table Value Value) : Table Value Value → Except Fault (Table Value Value)
  | [] => .ok vars
  | (.text name, v) :: rest =>
    overlay (if isInternal name then vars else vars.put (.text name) v) rest
  | _ :: _ => .error .noOperation

/-- The variables of a definition in a language. -/
def merge (d : Definition) (lang : Value) : Except Fault (Table Value Value) := do
  let isDefault := Value.same lang (.text Definition.defaultLang)
  let defaults ← d.langTable (.text Definition.defaultLang)
  let texts ← if isDefault then pure [] else d.langTable lang
  let vars ← overlay [] defaults
  overlay vars texts

/-- How deep the values of variables may be nested. -/
def nestingLimit : Nat := 328

/-- Interns the variables of a definition, if it has any, and gives their position. -/
def build (d : Definition) (lang : Value) : Interning (Option Nat) := do
  let vars ← merge d lang
  if vars.isEmpty then return none
  if nestingLimit < Value.heightEntries vars then throw (.fault .tooNested)
  match Yaml.write (.table vars) with
  | .ok s => return some (← internText s)
  | .error cause => throw (.variablesUnwritable cause d.name)

/-- The statement that loads the variables at a position. -/
def statement (index : Nat) : String :=
  "SetYamlVars(" ++ StringTable.reference index ++ ")"

end NodeScript.Predefined
