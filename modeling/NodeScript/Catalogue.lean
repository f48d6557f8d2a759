import NodeScript.Journal
import NodeScript.Script.Definition

/-!
# Catalogues

A catalogue holds definitions by name. A definition with a name that is there takes the place of the
earlier one.
-/

namespace NodeScript

/-- Definitions by name. -/
abbrev Catalogue := Table Value Definition

namespace Catalogue

/-- The report that a definition replaces another. -/
def replacementReport (name : Value) : Report :=
  ⟨.debug, s!"Replacing script definition '{name.render}'"⟩

/-- Adds or replaces a definition. -/
def register (c : Catalogue) (d : Definition) : Except Fault (Catalogue × Journal) := do
  d.name.checkKey
  return (c.put d.name d, if c.hasKey d.name then [replacementReport d.name] else [])

/-- Drops a definition and tells whether it was there. -/
def unregister (c : Catalogue) (name : Value) : Except Fault (Bool × Catalogue) := do
  name.checkKey
  return (c.hasKey name, c.drop name)

/-- The definition with a name. -/
def find (c : Catalogue) (name : Value) : Except Fault (Option Definition) := do
  name.checkKey
  return c.get? name

/-- Reads definitions and adds each, up to the first fault. -/
def registerData (c : Catalogue) : List Value → Except Fault Catalogue × Journal
  | [] => (.ok c, [])
  | v :: rest =>
    match Definition.ofValue v with
    | .error fault => (.error fault, [])
    | .ok d =>
      match c.register d with
      | .error fault => (.error fault, [])
      | .ok (c, reports) =>
        let (result, more) := registerData c rest
        (result, reports ++ more)

/-! ### Order of names -/

/-- How two numbers compare; not-a-number codes compare with none. -/
def compareNumbers? : Value.Numeric → Value.Numeric → Option Ordering
  | x, .int n => x.compareInt? n
  | .int n, y => (y.compareInt? n).map Ordering.swap
  | .real x, .real y =>
    let (xn, xd) := x.fraction
    let (yn, yd) := y.fraction
    let signed (neg : Bool) (n : Nat) : Int := if neg then -(n : Int) else n
    some (compare (signed x.isNegative xn * yd) (signed y.isNegative yn * xd))

mutual

/-- How two names compare: texts by their characters, numbers by value, tuples by the first items in
which they differ. -/
def compareNames? : Value → Value → Option Ordering
  | .text s, .text t => some (compare s t)
  | .tuple xs, .tuple ys => compareItems? xs ys
  | a, b => do compareNumbers? (← a.numeric?) (← b.numeric?)
termination_by structural a => a

/-- How two rows of items compare; a row that ends first comes first. -/
def compareItems? : List Value → List Value → Option Ordering
  | [], [] => some .eq
  | [], _ :: _ => some .lt
  | _ :: _, [] => some .gt
  | x :: xs, y :: ys => if Value.same x y then compareItems? xs ys else compareNames? x y
termination_by structural xs => xs

end

/-- The first neighbours in a list that have no order. -/
def firstUnordered? : List Value → Option (Value × Value)
  | [] => none
  | [_] => none
  | a :: b :: rest =>
    if (compareNames? a b).isNone then some (b, a) else firstUnordered? (b :: rest)

/-- The names in order. -/
def names (c : Catalogue) : Except Fault (List Value) :=
  match firstUnordered? c.keys with
  | some (b, a) => .error (.unordered b.kindName a.kindName)
  | none => .ok (c.keys.mergeSort fun a b => compareNames? a b != some .gt)

/-- The definitions in the order of their names. -/
def sorted (c : Catalogue) : Except Fault Catalogue := do
  let names ← c.names
  return names.filterMap fun n => (c.get? n).map (n, ·)

end Catalogue

end NodeScript
