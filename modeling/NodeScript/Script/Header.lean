import NodeScript.Script.LogLevel
import NodeScript.Template.Render

/-!
# Headers

The header of a compilation gives the language of the user, the ambient log level and the templates
of messages. Templates come from the caller; one that cannot be filled in gives way to a built-in
template.
-/

namespace NodeScript

/-- The context that a caller gives to a compilation. -/
structure Header where
  lang : Value
  logLevel : LogLevel
  messages : Table Value Value
deriving DecidableEq

namespace Header

/-- The message for a required parameter without a value. -/
def fieldKey : String := "errfield"

/-- The message for a definition that is not known. -/
def openKey : String := "erropen"

/-- The built-in message templates. -/
def builtinMessages : Table String String :=
  [(fieldKey, "Field '\x7bfield\x7d' in '\x7bscript\x7d' is required"),
   (openKey, "Script '\x7bname\x7d' has not been found")]

/-- The header of a caller who gives none. -/
def standard : Header where
  lang := .text "en"
  logLevel := .info
  messages := builtinMessages.map fun e => (.text e.1, .text e.2)

/-- The built-in template under a key. -/
def builtinTemplate (key : Value) : Except Fault String := do
  key.checkKey
  match key with
  | .text s =>
    match builtinMessages.get? s with
    | some t => return t
    | none => throw (.missingKey key)
  | _ => throw (.missingKey key)

/-- The template under a key: the caller's, unless it is missing or empty. -/
def template (h : Header) (key : Value) : Except Fault String := do
  key.checkKey
  let given := (h.messages.get? key).getD .null
  if given.isTruthy then return given.render else builtinTemplate key

/-- The first name among the fields of a built-in template that has no value. -/
def missingField (fields : Table String Value) (key : Value) : String :=
  let names := if key = .text fieldKey then ["field", "script"] else ["name"]
  (names.find? fun n => !fields.hasKey n).getD ""

/-- The built-in message under a key. -/
def builtinMessage (key : Value) (fields : Table String Value) : Except Fault String := do
  let t ← builtinTemplate key
  match Template.render fields t with
  | .ok s => return s
  | .error _ => throw (.missingKey (.text (missingField fields key)))

/-- The names that a field cannot have, since they stand for the header and the key. -/
def reservedNames : List String := ["self", "key"]

/-- The message under a key, with its fields filled in. A template that cannot be filled in gives
way to the built-in one, unless it asks for more than can be made. -/
def message (h : Header) (key : Value) (fields : Table String Value) : Except Fault String :=
  if reservedNames.any fields.hasKey then .error .wrongKind
  else
    match h.template key with
    | .error _ => builtinMessage key fields
    | .ok t =>
      match Template.render fields t with
      | .ok s => .ok s
      | .error .refused => builtinMessage key fields
      | .error .tooLarge => .error .tooLarge
      | .error .noRoom => .error .noRoom

/-- Reads a header; what it leaves open is taken from `base`. -/
def ofValue (v : Value) (base : Header) : Except Fault Header :=
  match v.orElse (.table []) with
  | .table record => do
    let given := (Value.getD record "messages" .null).orElse (.table [])
    let messages ← match Value.putAll base.messages given with
      | (t, none) => pure t
      | (_, some fault) => throw fault
    let logLevel ← LogLevel.parse (Value.getD record "log_level" .null) base.logLevel
    if logLevel == .inherit then throw .headerInherits
    let lang := (Value.getD record "lang" .null).orElse base.lang
    return { lang, logLevel, messages }
  | _ => .error .noOperation

end Header

end NodeScript
