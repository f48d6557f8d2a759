import NodeScript.Json.Writer
import NodeScript.Placeholder
import NodeScript.Script.Definition
import NodeScript.Script.Header
import NodeScript.StringTable
import NodeScript.Value.Normal

/-!
# Arguments

The values that an editor keeps for parameters become operands of generated calls, each according to
the kind of its parameter. A text becomes a constant of the program, and is expanded at run time if
it holds references; where no constants are wanted it is written as a literal.
-/

namespace NodeScript

/-! ### Interning -/

/-- The constants of a program under construction, and what was reported meanwhile. -/
structure Constants where
  table : StringTable
  journal : Journal

/-- No constants. -/
def Constants.empty : Constants := ⟨.empty, []⟩

/-- Work that may add constants and may fail; what was added before a failure stays. -/
abbrev Interning := ExceptT Failure (StateM Constants)

/-- The position of a text among the constants. -/
def internText (s : String) : Interning Nat := do
  let c ← get
  let (index, table, reports) := c.table.intern StringTable.standardHash s
  set (⟨table, c.journal ++ reports⟩ : Constants)
  return index

/-! ### Titles -/

/-- A title with its references to the texts of a definition in the language of the user. One that
cannot be expanded stays as it is. -/
def localizeTitle (title : Value) (d : Definition) (lang : Value) : Except Failure Value := do
  let defaults ← d.langTable (.text Definition.defaultLang)
  let texts ← d.langTable lang
  match Placeholder.expand (defaults.merge texts) title with
  | .ok v => return v
  | .error (.fault f) => throw (.fault f)
  | .error _ => return title

/-! ### Operands -/

/-- What stands for a value in generated code. -/
inductive Operand where
  /-- Text that is code already. -/
  | code (s : String)
  /-- A text literal. -/
  | literal (s : String)
  /-- A constant of the program. -/
  | constant (index : Nat)
  /-- A constant whose references are expanded at run time. -/
  | expansion (index : Nat)
deriving DecidableEq

namespace Operand

/-- The text of an operand. -/
def render : Operand → String
  | .code s => s
  | .literal s => Literal.render s
  | .constant index => StringTable.reference index
  | .expansion index => "macro(" ++ StringTable.reference index ++ ")"

end Operand

/-- A parameter value ready for generated code. -/
structure Argument where
  name : Value
  /-- The type in generated code. -/
  type : String
  operand : Operand
deriving DecidableEq

namespace Argument

/-- The failure of a required parameter without a value. -/
def requiredFailure (h : Header) (d : Definition) (p : ParamSpec) : Failure :=
  let result : Except Failure Failure := do
    let field ← localizeTitle p.displayTitle d h.lang
    let script ← localizeTitle d.displayTitle d h.lang
    let message ← h.message Header.fieldKey [("field", field), ("script", script)]
    return .required message field script p.name d.name
  match result with
  | .ok failure => failure
  | .error failure => failure

/-- The text of a value, or the default of the parameter where it is empty. -/
def textOrDefault (h : Header) (d : Definition) (p : ParamSpec) (s : String) :
    Except Failure String :=
  if !s.isEmpty then .ok s
  else if !p.options.default.isEmpty then .ok p.options.default
  else if p.options.required then .error (requiredFailure h d p)
  else .ok ""

/-- A text as an operand: a constant if interning is asked for, else a literal. -/
def textOperand (intern : Bool) (s : String) : Interning Operand := do
  if intern then return .constant (← internText s) else return .literal s

/-- The argument for a checkbox: only nothing, zero and `false` are false. -/
def ofCheckbox (p : ParamSpec) (raw : Value) : Argument :=
  let s := raw.normalized
  let flag := if s == "" || s == "0" || s == "false" then "false" else "true"
  ⟨p.name, "bool", .code flag⟩

/-- The argument for a text of the user that is not code. -/
def ofPlain (p : ParamSpec) (intern : Bool) (s : String) : Interning Argument := do
  match ← textOperand intern s with
  | .constant index =>
    if s.toList.contains Placeholder.sigil then return ⟨p.name, "str", .expansion index⟩
    else return ⟨p.name, "str", .constant index⟩
  | operand => return ⟨p.name, "str", operand⟩

/-- The argument for a text. Code written by the user is passed on as it is. -/
def ofText (h : Header) (d : Definition) (p : ParamSpec) (raw : Value) (intern : Bool) :
    Interning Argument := do
  let s ← textOrDefault h d p raw.normalized
  if d.isSourceCode then return ⟨p.name, "str", .code s⟩
  ofPlain p intern s

/-- The argument for a selection: a text, or a value of the type that the options give. -/
def ofSelect (p : ParamSpec) (raw : Value) (intern : Bool) : Interning Argument := do
  let s := raw.normalized
  if !p.options.type.isEmpty then return ⟨p.name, p.options.type, .code s⟩
  else return ⟨p.name, "str", ← textOperand intern s⟩

/-- The argument for a number. -/
def ofNumber (h : Header) (d : Definition) (p : ParamSpec) (raw : Value) :
    Except Failure Argument := do
  let s ← textOrDefault h d p raw.normalized
  return ⟨p.name, "int", .code (if s.isEmpty then "0" else s)⟩

/-- The items of a value that is a list with at least one item. -/
def listItems? : Value → Option (List Value)
  | .list items => if items.isEmpty then none else some items
  | .tuple items => if items.isEmpty then none else some items
  | _ => none

/-- The argument for a list, which is written as JSON. -/
def ofList (h : Header) (d : Definition) (p : ParamSpec) (raw : Value) (intern : Bool)
    (room : Option Nat := none) : Interning Argument := do
  let s ← match listItems? raw with
    | some items =>
      match Json.write .plain (.list items) room with
      | .ok s => pure s
      | .error cause => throw (.ofList cause p.name d.name)
    | none =>
      if p.options.required then throw (requiredFailure h d p)
      pure "[]"
  return ⟨p.name, "str", ← textOperand intern s⟩

/-- The argument for a parameter of a definition. -/
def ofValue (h : Header) (d : Definition) (p : ParamSpec) (raw : Value) (intern : Bool)
    (room : Option Nat := none) : Interning Argument :=
  match p.kind with
  | .checkbox => pure (ofCheckbox p raw)
  | .textarea => ofText h d p raw intern
  | .singleText => ofText h d p raw intern
  | .select => ofSelect p raw intern
  | .number => ofNumber h d p raw
  | .list => ofList h d p raw intern room

/-- The raw value of a parameter among given values. -/
def rawValue (values : Value) (p : ParamSpec) : Except Fault Value :=
  match values with
  | .table entries => do
    p.name.checkKey
    return (Table.get? entries p.name).getD .null
  | _ => .error .noOperation

/-- Makes the argument for a parameter out of given values. -/
def ofParam (h : Header) (d : Definition) (values : Value) (intern : Bool) (p : ParamSpec)
    (room : Option Nat := none) : Interning Argument := do
  let raw ← rawValue values p
  ofValue h d p raw intern room

/-- Makes the arguments for some parameters out of given values, in order. -/
def ofParams (h : Header) (d : Definition) (values : Value) (intern : Bool) (ps : List ParamSpec)
    (room : Option Nat := none) : Interning (List Argument) :=
  ps.mapM fun p => ofParam h d values intern p room

/-- The arguments for all parameters of a definition, in the order of declaration. -/
def listOfValues (h : Header) (d : Definition) (values : Value) (intern : Bool)
    (room : Option Nat := none) : Interning (List Argument) :=
  ofParams h d (values.orElse (.table [])) intern d.params room

end Argument

end NodeScript
