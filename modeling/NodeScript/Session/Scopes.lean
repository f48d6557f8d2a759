import NodeScript.Placeholder
import NodeScript.Value.Normal

/-!
# Scopes

The variables of a running script. Every function with a tree of its own opens a scope and closes it
at its end; variables are written into the innermost scope, and only its variables are seen.
-/

namespace NodeScript

/-- The open scopes, innermost first. -/
structure Scopes where
  stack : List (Table Value Value)

/-- Work on scopes that may fail; what was done before a failure stays. -/
abbrev Scoping := ExceptT Failure (StateM Scopes)

namespace Scopes

/-- No scopes. -/
def empty : Scopes := ⟨[]⟩

/-- The number of open scopes. -/
def depth (s : Scopes) : Nat :=
  s.stack.length

/-- The innermost scope. -/
def innermost? (s : Scopes) : Option (Table Value Value) :=
  s.stack.head?

/-- The variables that are seen. -/
def visible (s : Scopes) : Table Value Value :=
  s.innermost?.getD []

/-- Opens a scope with some variables. -/
def enter (vars : Value) : Scoping Unit := do
  let vars ← (vars.orElse (.table [])).toTable
  modify fun s => ⟨vars :: s.stack⟩

/-- Closes the innermost scope. -/
def leave : Scoping Unit := do
  match (← get).stack with
  | [] => throw .noScopeToClose
  | _ :: rest => set (Scopes.mk rest)

/-- Writes a variable into the innermost scope. -/
def setVariable (name value : Value) : Scoping Unit := do
  match (← get).stack with
  | [] =>
    -- the message shows the name
    let _ ← name.shown
    throw (.noScopeFor name)
  | vars :: rest =>
    name.checkKey
    set (Scopes.mk (vars.put name value :: rest))

/-- Writes variables into the innermost scope. Those before a fault are written. -/
def setVariables (vars : Value) : Scoping Unit := do
  match (← get).stack with
  | [] => throw .noScope
  | old :: rest =>
    let (new, fault?) := Value.putAll old vars
    set (Scopes.mk (new :: rest))
    match fault? with
    | some fault => throw (.fault fault)
    | none => return ()

/-- Expands the references of a text to the variables that are seen. Where no scope is open the text
stays as it is. -/
def expand (s : Scopes) (text : Value) : Except Failure Value :=
  match s.stack with
  | [] => .ok text
  | vars :: _ => Placeholder.expand vars text

end Scopes

end NodeScript
