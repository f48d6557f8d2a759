import NodeScript.Script.ParamKind

/-!
# Parameters

The declaration of a parameter: its name, its widget, the title shown to users, and options. Names
and titles are kept as the editor sent them.
-/

namespace NodeScript

/-- Options of a parameter. -/
structure ParamOptions where
  required : Bool := false
  /-- Stands in for a missing value, unless it is empty. -/
  default : String := ""
  /-- The type of a selection whose value is passed on as it is; empty for a text. -/
  type : String := ""
deriving DecidableEq, Inhabited

namespace ParamOptions

/-- The text of an entry, empty if it does not count as present. -/
def entryText (record : Table Value Value) (name : String) : String :=
  let v := Value.getD record name (.text "")
  if v.isTruthy then v.render else ""

/-- Reads options; nothing at all gives the options of an undemanding parameter. -/
def ofValue (v : Value) : Except Fault ParamOptions :=
  match v.orElse (.table []) with
  | .table record => .ok {
      required := (Value.getD record "required" (.bool false)).isTruthy
      default := entryText record "default"
      type := entryText record "type" }
  | _ => .error .noOperation

/-- Writes options. -/
def toValue (o : ParamOptions) : Value :=
  .table [("required", .bool o.required), ("default", .text o.default), ("type", .text o.type)]

end ParamOptions

/-- A declared parameter. -/
structure ParamSpec where
  name : Value
  kind : ParamKind := .singleText
  title : Value := .text ""
  options : ParamOptions := {}
deriving DecidableEq, Inhabited

namespace ParamSpec

/-- The title shown to users, which is the name where there is no title. -/
def displayTitle (p : ParamSpec) : Value :=
  p.title.orElse p.name

/-- The kind that a record declares, under either of its names. -/
def kindOfRecord (record : Table Value Value) : Except Fault ParamKind :=
  match record.get? (.text "kind"), record.get? (.text "type") with
  | some k, _ => ParamKind.parse k
  | none, some k => ParamKind.parse k
  | none, none => pure .singleText

/-- Reads the declaration of a parameter. -/
def ofValue (v : Value) : Except Fault ParamSpec := do
  let record ← v.entries
  let name ← Value.require record "name"
  let kind ← kindOfRecord record
  let title := Value.getD record "title" (.text "")
  let options ← ParamOptions.ofValue (Value.getD record "options" .null)
  return { name, kind, title, options }

/-- Writes the declaration of a parameter. -/
def toValue (p : ParamSpec) : Value :=
  .table [("name", p.name), ("kind", .text p.kind.word), ("title", p.title),
    ("options", p.options.toValue)]

end ParamSpec

end NodeScript
