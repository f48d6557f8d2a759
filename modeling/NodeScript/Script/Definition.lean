import NodeScript.Script.LogLevel
import NodeScript.Script.Node
import NodeScript.Script.Param

/-!
# Definitions

A definition is a named code template with declared parameters. Its code has places for the calls of
the nodes below it; its own tree is compiled once into its function; its language tables hold
localized texts by language code.
-/

namespace NodeScript

/-- A named, parameterized code template. -/
structure Definition where
  name : Value
  title : Value := .text ""
  logLevel : LogLevel := .inherit
  code : Value := .text ""
  params : List ParamSpec := []
  tree : List Node := []
  langs : Table Value (Table Value Value) := []
deriving DecidableEq, Inhabited

namespace Definition

/-- The name of the definition whose code is written by the user and goes to the top level. -/
def sourceCodeName : String := "source-code"

/-- The language code of the table that holds the defaults. -/
def defaultLang : String := "def"

/-- Whether the definition holds code written by the user. -/
def isSourceCode (d : Definition) : Bool :=
  Value.same d.name (.text sourceCodeName)

/-- The title shown to users, which is the name where there is no title. -/
def displayTitle (d : Definition) : Value :=
  d.title.orElse d.name

/-- The first parameter with a name. -/
def param? (d : Definition) (name : Value) : Option ParamSpec :=
  d.params.find? fun p => Value.same p.name name

/-- The texts of a language, none for a language without a table. -/
def langTable (d : Definition) (lang : Value) : Except Fault (Table Value Value) := do
  lang.checkKey
  return (d.langs.get? lang).getD []

/-- Reads the language tables. -/
def langsOfValue (v : Value) : Except Fault (Table Value (Table Value Value)) :=
  match v.orElse (.table []) with
  | .table langs => langs.mapM fun e => do
      let texts ← (e.2.orElse (.table [])).toTable
      return (e.1, texts)
  | _ => .error .noOperation

/-- The log level in a record, under either of its names. -/
def levelData (record : Table Value Value) : Value :=
  Value.getD record "log_level" (Value.getD record "logLevel" .null)

/-- The data of the parameters in a record; a missing entry stands for none. -/
def paramData (record : Table Value Value) : Except Fault (List Value) :=
  ((Value.getD record "params" .null).orElse (.list [])).items

/-- Reads a definition. -/
def ofValue (v : Value) : Except Fault Definition := do
  let record ← v.entries
  let name ← Value.require record "name"
  let title := Value.getD record "title" (.text "")
  let logLevel ← LogLevel.parse (levelData record) .inherit
  let code := Value.getD record "code" (.text "")
  let items ← paramData record
  let params ← items.mapM ParamSpec.ofValue
  let tree ← Node.listOfValue (Value.getD record "tree" .null)
  let langs ← langsOfValue (Value.getD record "langs" .null)
  return { name, title, logLevel, code, params, tree, langs }

/-- Writes a definition. -/
def toValue (d : Definition) : Value :=
  .table [("name", d.name), ("title", d.title), ("log_level", .int d.logLevel.code),
    ("code", d.code), ("params", .list (d.params.map ParamSpec.toValue)),
    ("tree", .list (Node.toValues d.tree)),
    ("langs", .table (d.langs.map fun e => (e.1, .table e.2)))]

end Definition

end NodeScript
