import NodeScript.Fault

/-!
# Failures

A failure ends a compilation or an action of a running script. Besides faults in the data there are
failures that the library detects itself; these carry a message for the user and details for the
program that shows it.
-/

namespace NodeScript

/-- Why a value could not be written in a data format. -/
inductive WriteFault where
  /-- An object of the host program cannot be written as JSON. -/
  | foreignJson
  /-- A key that cannot be written as JSON. -/
  | keyJson (kindName : String)
  /-- A container contains itself. -/
  | circular
  /-- An integer has too many digits. -/
  | longInteger
  /-- Containers are nested too deep. -/
  | tooNested
  /-- An object of the host program cannot be written as YAML. -/
  | foreignYaml (shown : String)
deriving DecidableEq

namespace WriteFault

/-- The message of the fault. -/
def message : WriteFault → String
  | .foreignJson => "Object of type Opaque is not JSON serializable"
  | .keyJson kindName =>
    s!"keys must be str, int, float, bool or None, not {kindName}"
  | .circular => "Circular reference detected"
  | .longInteger => Fault.unwritableInteger.message
  | .tooNested => Fault.tooNested.message
  | .foreignYaml shown => "('cannot represent an object', " ++ shown ++ ")"

end WriteFault

/-- Why a compilation or an action came to an end. -/
inductive Failure where
  /-- The data is at fault. -/
  | fault (f : Fault)
  /-- A node uses a definition that is not known. -/
  | notFound (message : String) (name : Value)
  /-- A required parameter has neither a value nor a default. -/
  | required (message : String) (field script param definition : Value)
  /-- A list parameter cannot be written. -/
  | listUnwritable (cause : WriteFault) (param definition : Value)
  /-- The predefined variables of a definition cannot be written. -/
  | variablesUnwritable (cause : WriteFault) (definition : Value)
  /-- A definition of user code lacks its parameters. -/
  | sourceIncomplete (definition : Value)
  /-- The expansion of a variable reaches itself. -/
  | selfReference (name : String)
  /-- Expansions are nested too deeply. -/
  | tooDeep (limit : Nat)
  /-- A scope is closed and none is open. -/
  | noScopeToClose
  /-- A variable is set and no scope is open. -/
  | noScopeFor (name : Value)
  /-- Variables are set and no scope is open. -/
  | noScope
  /-- A scope is opened with a name that lacks its value. -/
  | unpaired (count : Nat)
  /-- The text of predefined variables cannot be read. -/
  | variablesUnreadable
  /-- The text of predefined variables is not a mapping. -/
  | variablesNotMapping
deriving DecidableEq

namespace Failure

instance : Coe Fault Failure := ⟨.fault⟩

/-- A fault in the data ends the work that meets it. -/
instance : MonadLift (Except Fault) (Except Failure) := ⟨fun r => r.mapError .fault⟩

/-- The failure of a list parameter that cannot be written. Nesting that is too deep is a fault in
the data. -/
def ofList (cause : WriteFault) (param definition : Value) : Failure :=
  match cause with
  | .tooNested => .fault .tooNested
  | cause => .listUnwritable cause param definition

/-- The message of a failure. -/
def message : Failure → String
  | .fault f => f.message
  | .notFound message _ => message
  | .required message _ _ _ _ => message
  | .listUnwritable cause param _ =>
    s!"Cannot serialize list parameter '{param.render}': {cause.message}"
  | .variablesUnwritable cause definition =>
    s!"Cannot serialize predefined variables of '{definition.render}': {cause.message}"
  | .sourceIncomplete definition =>
    s!"'{definition.render}' must declare a global flag and a code parameter"
  | .selfReference name => name ++ " variable refers to itself"
  | .tooDeep _ => "maximum depth reached"
  | .noScopeToClose => "deinit() called with no open scope"
  | .noScopeFor name => s!"Cannot set variable '{name.render}': no open scope"
  | .noScope => "Cannot set variables: no open scope"
  | .unpaired count => s!"init() expects name/value pairs, got {count} arguments"
  | .variablesUnreadable => "Invalid predefined variables"
  | .variablesNotMapping => "Predefined variables must be a mapping"

/-- What a failure says to the program that shows it. -/
def details : Failure → List (String × Value)
  | .required _ _ _ param definition => [("param", param), ("definition", definition)]
  | .listUnwritable _ param definition => [("param", param), ("definition", definition)]
  | .variablesUnwritable _ definition => [("definition", definition)]
  | .sourceIncomplete definition => [("definition", definition)]
  | .selfReference name => [("name", .text name)]
  | .tooDeep limit => [("depth", .int limit)]
  | _ => []

end Failure

end NodeScript
