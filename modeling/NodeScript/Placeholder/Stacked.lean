import NodeScript.Placeholder

/-!
# Expansion on a stack

A caller may hold the names that are being expanded on a stack of its own. A name is pushed before
its value is expanded and popped after that; whether a name may be expanded is asked of the stack as
it is at that moment. An expansion that fails pops nothing, so the caller finds the names that led
to the failure.
-/

namespace NodeScript.Placeholder

/-- Work on the stack of names, innermost last. A failure leaves the stack as it is then. -/
abbrev Stacked := ExceptT Failure (StateM Trail)

/-- Expands pieces from the first to the last, and resolves each name on the stack that the names
before it leave. -/
def scanPieces (resolve : String → Stacked (Option Piece)) :
    (name : Option (List Piece)) → List Piece → Stacked (List Piece)
  | none, [] => pure []
  | some name, [] => pure (Piece.sigil :: name)
  | none, p :: rest =>
    if p == Piece.sigil then scanPieces resolve (some []) rest
    else do
      let done ← scanPieces resolve none rest
      return p :: done
  | some name, p :: rest =>
    if p == Piece.sigil then
      match join? name with
      | none => throw (.fault .wrongKind)
      | some key => do
        match ← resolve (String.ofList key) with
        | none =>
          let done ← scanPieces resolve (some []) rest
          return Piece.sigil :: some key :: done
        | some value =>
          let done ← scanPieces resolve none rest
          return value :: done
    else if nameLimit < name.length + 1 then do
      let done ← scanPieces resolve none rest
      return Piece.sigil :: name ++ p :: done
    else scanPieces resolve (some (name ++ [p])) rest

/-- Expands a value with a given way to resolve names on the stack. -/
def scanValue (resolve : String → Stacked (Option Piece)) (v : Value) : Stacked Value :=
  if !v.isTruthy then pure v
  else match pieces? v with
    | none => throw (.fault .wrongKind)
    | some ps =>
      if !ps.contains Piece.sigil then pure v
      else do
        let done ← scanPieces resolve none ps
        match join? done with
        | some cs => return .text (String.ofList cs)
        | none => throw (.fault .wrongKind)

/-- Asks whether a name may be expanded, and pushes it. -/
def push (key : String) : Stacked Unit := do
  let names ← get
  if names.contains key then throw (.selfReference key)
  else if depthLimit ≤ names.length then throw (.tooDeep depthLimit)
  else set (names ++ [key])

/-- Takes the innermost name away. -/
def pop : Stacked Unit :=
  modify List.dropLast

/-- Work that is done with one more name on the stack. -/
def within {α : Type} (key : String) (w : Stacked α) : Stacked α := do
  push key
  let a ← w
  pop
  return a

/-- Expands a value on the stack, with fuel for the expansions inside each other. -/
def expandFuel (values : Table Value Value) : (fuel : Nat) → Value → Stacked Value
  | 0, _ => throw (.tooDeep depthLimit)
  | fuel + 1, v => scanValue (fun key => do
      match values.get? (.text key) with
      | none => return none
      | some w =>
        let expanded ← within key (expandFuel values fuel w)
        return some (Piece.ofValue expanded)) v

/-- Expands a value on the stack. The stack grows with each expansion inside another, so no more of
them are begun than the fuel allows. -/
def expandOn (values : Table Value Value) (v : Value) : Stacked Value :=
  expandFuel values (depthLimit + 1) v

end NodeScript.Placeholder
