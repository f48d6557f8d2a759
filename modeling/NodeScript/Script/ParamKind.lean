import NodeScript.Text.Casing
import NodeScript.Value.Access

/-!
# Parameter kinds

The widgets by which an editor asks for a parameter. A kind is written as a code, or as a word in
any case, with or without underscores.
-/

namespace NodeScript

/-- The widget of a parameter. -/
inductive ParamKind where
  | checkbox
  | textarea
  | singleText
  | select
  | number
  | list
deriving DecidableEq, Inhabited

namespace ParamKind

/-- All kinds, by code. -/
def all : List ParamKind :=
  [.checkbox, .textarea, .singleText, .select, .number, .list]

/-- The word for a kind in data. -/
def word : ParamKind → String
  | .checkbox => "checkbox"
  | .textarea => "textarea"
  | .singleText => "singletext"
  | .select => "select"
  | .number => "number"
  | .list => "list"

/-- The name of a kind. -/
def name : ParamKind → String
  | .checkbox => "CHECKBOX"
  | .textarea => "TEXTAREA"
  | .singleText => "SINGLE_TEXT"
  | .select => "SELECT"
  | .number => "NUMBER"
  | .list => "LIST"

/-- The kind with a code. -/
def ofCode (text : String) : Except Fault ParamKind := do
  let n ← Value.integerOfText 10 text
  match all[n.toNat]? with
  | some k => return k
  | none => throw (.unknownKindCode text)

/-- The kind that a value denotes. -/
def parse (v : Value) : Except Fault ParamKind :=
  let text := Text.trim v.render
  if Text.isNumeral text then ofCode text
  else
    let lowered := String.ofList ((Text.lower text).toList.filter (· != '_'))
    match all.find? fun k => k.word == lowered with
    | some k => .ok k
    | none =>
      let name := Text.upper text
      match all.find? fun k => k.name == name with
      | some k => .ok k
      | none => .error (.missingKey (.text name))

end ParamKind

end NodeScript
