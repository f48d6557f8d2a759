import NodeScript.Value.Basic

/-!
# Order of sets

A set of numbers lists its members by their slots. The number of slots is a power of two, a member
goes to the slot that its residue names or to the next free one in a fixed sequence, and members
come in the order in which they were read. Equal numbers have equal residues. Members of other
kinds have no residue, and a set with such a member lists all of them as they were read.
-/

namespace NodeScript.Value

/-- The modulus of residues, a prime one less than a power of two. -/
def residueModulus : Nat := 0x1fffffffffffffff

/-- The residue of an infinity. -/
def infinityResidue : Nat := 314159

/-- A magnitude with a sign; minus one is not used. -/
def signedResidue (negative : Bool) (n : Nat) : Int :=
  if !negative then n else if n == 1 then -2 else -(n : Int)

/-- The residue of a double. Powers of two come round after 61 steps. -/
def realResidue? (x : Double) : Option Int :=
  if x.isNaN then none
  else if x.isInfinite then some (signedResidue x.isNegative infinityResidue)
  else
    let turn := (x.exponent % 61).toNat
    some (signedResidue x.isNegative (x.mantissa * Nat.pow 2 turn % residueModulus))

/-- The residue of a number, as a word of 64 bits. -/
def residue? (v : Value) : Option Nat :=
  let residue := match v.numeric? with
    | some (.int n) => some (signedResidue (n < 0) (n.natAbs % residueModulus))
    | some (.real x) => realResidue? x
    | none => none
  residue.map fun n => (n % 0x10000000000000000).toNat

/-- The number of slots for a number of members: eight, or more than twice the members. -/
def slotCount (members : Nat) : Nat :=
  if members < 5 then 8 else max 8 (Nat.pow 2 (Nat.log2 (2 * members) + 1))

/-- The slots that are tried together: ten in a row if there are so many. -/
def slotRow (count i : Nat) : List Nat :=
  if i + 9 < count then List.range' i 10 else [i]

/-- The first free slot, within a bound on the number of rows. `rest` are the bits of the residue
that have not been used. -/
def freeSlot (count : Nat) (taken : List Nat) : (bound rest i : Nat) → Nat
  | 0, _, i => i
  | bound + 1, rest, i =>
    match (slotRow count i).find? (fun s => !taken.contains s) with
    | some s => s
    | none =>
      let rest := rest / 32
      freeSlot count taken bound rest ((i * 5 + 1 + rest) % count)

/-- The slots of members with the given residues. -/
def slots (count : Nat) : (taken : List Nat) → List Nat → List Nat
  | _, [] => []
  | taken, r :: rs =>
    let s := freeSlot count taken (2 * count + 16) r (r % count)
    s :: slots count (s :: taken) rs

/-- The members of a set in the order in which they are listed. -/
def setOrder (members : List Value) : List Value :=
  match members.mapM residue? with
  | none => members
  | some residues =>
    let placed := (slots (slotCount members.length) [] residues).zip members
    (placed.mergeSort fun a b => a.1 ≤ b.1).map Prod.snd

end NodeScript.Value
