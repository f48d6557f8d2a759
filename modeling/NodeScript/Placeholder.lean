import NodeScript.Failure
import NodeScript.Value.Table

/-!
# Placeholders

A text may refer to variables as `#name#`. Expansion puts the expanded value of the variable in the
place of a reference; a name that is not known stays, and its closing sigil may open the next
reference. A name has at most 32 characters, and expansions are nested at most 16 deep. The names
that are being expanded are kept, so that a variable that reaches itself is noticed.

Expansion works on pieces. The pieces of a text are its characters; a sequence may stand in the
place of a text and has its items as pieces, and then only pieces that are texts can be put
together again.
-/

namespace NodeScript.Placeholder

/-- The character around names. -/
def sigil : Char := '#'

/-- The greatest length of a name. -/
def nameLimit : Nat := 32

/-- The greatest number of nested expansions. -/
def depthLimit : Nat := 16

/-- An item of a text: its characters, or nothing for an item that is no text. -/
abbrev Piece := Option (List Char)

namespace Piece

/-- The piece that opens and closes names. -/
def sigil : Piece := some [Placeholder.sigil]

/-- The piece that a value makes. -/
def ofValue : Value → Piece
  | .text s => some s.toList
  | _ => none

end Piece

/-- The pieces of a value, if it is a text or a sequence. -/
def pieces? : Value → Option (List Piece)
  | .text s => some (s.toList.map fun c => some [c])
  | .list items => some (items.map Piece.ofValue)
  | .tuple items => some (items.map Piece.ofValue)
  | .set items => some (items.map Piece.ofValue)
  | .table entries => some (entries.map fun e => Piece.ofValue e.1)
  | _ => none

/-- The characters of some pieces, if all are texts. -/
def join? (ps : List Piece) : Option (List Char) :=
  (ps.mapM id).map List.flatten

/-- The names that are being expanded, innermost last. -/
abbrev Trail := List String

/-- The end of an expansion that does not succeed, with the names that were being expanded. -/
abbrev Stop := Failure × Trail

/-- Expands pieces. `name` holds the pieces since an open sigil, `resolve` gives the expansion of a
known name. -/
def expandPieces (trail : Trail) (resolve : String → Except Stop (Option Piece)) :
    (name : Option (List Piece)) → List Piece → Except Stop (List Piece)
  | none, [] => .ok []
  | some name, [] => .ok (Piece.sigil :: name)
  | none, p :: rest =>
    if p == Piece.sigil then expandPieces trail resolve (some []) rest
    else do
      let done ← expandPieces trail resolve none rest
      return p :: done
  | some name, p :: rest =>
    if p == Piece.sigil then
      match join? name with
      | none => .error (.fault .wrongKind, trail)
      | some key => do
        match ← resolve (String.ofList key) with
        | none =>
          -- the closing sigil opens the next name
          let done ← expandPieces trail resolve (some []) rest
          return Piece.sigil :: some key :: done
        | some value =>
          let done ← expandPieces trail resolve none rest
          return value :: done
    else if nameLimit < name.length + 1 then do
      let done ← expandPieces trail resolve none rest
      return Piece.sigil :: name ++ p :: done
    else expandPieces trail resolve (some (name ++ [p])) rest

/-- Expands a value with a given way to resolve names. A value that is empty or holds no sigil is
left as it is. -/
def expandWith (trail : Trail) (resolve : String → Except Stop (Option Piece)) (v : Value) :
    Except Stop Value :=
  if !v.isTruthy then .ok v
  else match pieces? v with
    | none => .error (.fault .wrongKind, trail)
    | some ps =>
      if !ps.contains Piece.sigil then .ok v
      else do
        let done ← expandPieces trail resolve none ps
        match join? done with
        | some cs => return .text (String.ofList cs)
        | none => throw (.fault .wrongKind, trail)

/-- Expands a value with room for some more nested expansions. -/
def expandAt (values : Table Value Value) : (room : Nat) → Trail → Value → Except Stop Value
  | 0, trail => expandWith trail fun key =>
    if !values.hasKey (.text key) then .ok none
    else if trail.contains key then .error (.selfReference key, trail)
    else .error (.tooDeep depthLimit, trail)
  | room + 1, trail => expandWith trail fun key =>
    match values.get? (.text key) with
    | none => .ok none
    | some v =>
      if trail.contains key then .error (.selfReference key, trail)
      else do
        let expanded ← expandAt values room (trail ++ [key]) v
        return some (Piece.ofValue expanded)

/-- Expands a value while some names are being expanded already. -/
def expandFrom (values : Table Value Value) (trail : Trail) (v : Value) : Except Stop Value :=
  expandAt values (depthLimit - trail.length) trail v

/-- Expands the references of a value. -/
def expand (values : Table Value Value) (v : Value) : Except Failure Value :=
  (expandFrom values [] v).mapError Prod.fst

end NodeScript.Placeholder
