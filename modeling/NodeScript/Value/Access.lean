import NodeScript.Fault
import NodeScript.Number.Reading
import NodeScript.Value.Table

/-!
# Reading values

Ways to look at a value: as a record with named entries, as a sequence of items, as a table built
from pairs, as an integer. Each says by a fault why a value does not allow it.
-/

namespace NodeScript.Value

/-- The named entries of a value. -/
def entries : Value → Except Fault (Table Value Value)
  | .table entries => .ok entries
  | .list _ | .loop .list _ => .error .listEntries
  | .tuple _ => .error .tupleEntries
  | .text _ => .error .textEntries
  | v => .error (.noEntries v.kindName)

/-- An item of a list, which may be the list itself. -/
def itemOf (whole : Value) : Value → Value
  | .loop _ 0 => whole
  | v => v

/-- The items of a value: those of a sequence, the characters of a text, the keys of a table. -/
def items : Value → Except Fault (List Value)
  | .list items => .ok (items.map (itemOf (.list items)))
  | .tuple items => .ok items
  | .set items => .ok items
  | .table entries => .ok (entries.map Prod.fst)
  | .text s => .ok (s.toList.map fun c => .text (String.singleton c))
  | .octets bytes => .ok (bytes.map fun b => .int b.toNat)
  | v => .error (.noItems v.kindName)

/-- The entry under a name, or another value. -/
def getD (record : Table Value Value) (name : String) (default : Value) : Value :=
  (record.get? (.text name)).getD default

/-- The entry that a record must have. -/
def require (record : Table Value Value) (name : String) : Except Fault Value :=
  match record.get? (.text name) with
  | some v => .ok v
  | none => .error (.missingKey (.text name))

/-- Fails for a value that cannot be a key. -/
def checkKey (v : Value) : Except Fault Unit :=
  match v.unkeyable? with
  | some part => .error (.unkeyable part.kindName)
  | none => .ok ()

/-- A key and a value from an item that stands at a position among pairs. -/
def pairAt (index : Nat) (item : Value) : Except Fault (Value × Value) :=
  match item.items with
  | .error _ => .error (.pairKind index)
  | .ok [k, v] => do
    k.checkKey
    return (k, v)
  | .ok parts => .error (.pairLength index parts.length)

/-- Writes pairs into a table, up to the first that is no pair. -/
def putPairs (t : Table Value Value) (index : Nat) :
    List Value → Table Value Value × Option Fault
  | [] => (t, none)
  | item :: rest =>
    match pairAt index item with
    | .error fault => (t, some fault)
    | .ok (k, v) => putPairs (t.put k v) (index + 1) rest

/-- Writes the entries of a table, or a sequence of pairs, into a table. What was written before a
fault stays. -/
def putAll (t : Table Value Value) : Value → Table Value Value × Option Fault
  | .table entries => (t.merge entries, none)
  | v =>
    match v.items with
    | .error fault => (t, some fault)
    | .ok items => putPairs t 0 items

/-- The table with the entries of a value. -/
def toTable (v : Value) : Except Fault (Table Value Value) :=
  match putAll [] v with
  | (t, none) => .ok t
  | (_, some fault) => .error fault

/-- The integer that a text denotes. -/
def integerOfText (base : Nat) (s : String) : Except Fault Int :=
  match Reading.integer base s.toList with
  | .malformed => .error (.notAnInteger base s)
  | .tooLong count => .error (.tooManyDigits count)
  | .digits negative digits =>
    let n : Int := Text.ofDigits base digits
    .ok (if negative then -n else n)

/-- The integer part of a number, or the integer that a text denotes. -/
def toInteger : Value → Except Fault Int
  | .bool b => .ok (if b then 1 else 0)
  | .int n => .ok n
  | .real x =>
    if x.isNaN then .error .nanToInteger
    else if x.isInfinite then .error .infinityToInteger
    else .ok x.truncate
  | .text s => integerOfText 10 s
  | v => .error (.noNumeral v.kindName)

/-! ### Height -/

mutual

/-- How deep containers are nested in a value. -/
def height : Value → Nat
  | .list items => heightItems items + 1
  | .tuple items => heightItems items + 1
  | .set items => heightItems items + 1
  | .table entries => heightEntries entries + 1
  | _ => 0

/-- The greatest height among some items. -/
def heightItems : List Value → Nat
  | [] => 0
  | x :: xs => max x.height (heightItems xs)

/-- The greatest height among the keys and values of some entries. -/
def heightEntries : List (Value × Value) → Nat
  | [] => 0
  | (k, v) :: rest => max (max k.height v.height) (heightEntries rest)

end

theorem height_le_heightItems {x : Value} {xs : List Value} (h : x ∈ xs) :
    x.height ≤ heightItems xs := by
  induction xs with
  | nil => cases h
  | cons y ys ih =>
    rw [heightItems]
    cases h with
    | head => omega
    | tail _ h => have := ih h; omega

theorem height_le_heightEntries {e : Value × Value} {es : List (Value × Value)} (h : e ∈ es) :
    max e.1.height e.2.height ≤ heightEntries es := by
  induction es with
  | nil => cases h
  | cons f fs ih =>
    obtain ⟨k, v⟩ := f
    rw [heightEntries]
    cases h with
    | head => simp only []; omega
    | tail _ h => have := ih h; omega

theorem height_get?_le {es : Table Value Value} {k v : Value} (h : es.get? k = some v) :
    v.height ≤ heightEntries es := by
  induction es with
  | nil => simp [Table.get?] at h
  | cons f fs ih =>
    obtain ⟨k', w⟩ := f
    rw [heightEntries]
    rw [Table.get?] at h
    split at h
    · cases h; omega
    · have := ih h; omega

theorem height_getD_le (es : Table Value Value) (name : String) (d : Value) :
    (getD es name d).height ≤ max d.height (heightEntries es) := by
  rw [getD]
  cases h : es.get? (.text name) with
  | none => simp only [Option.getD_none]; omega
  | some v =>
    have := height_get?_le h
    simp only [Option.getD_some]; omega

theorem height_itemOf_le (whole x : Value) :
    (itemOf whole x).height ≤ max whole.height x.height := by
  unfold itemOf
  split <;> omega

theorem height_items_le {v x : Value} {xs : List Value} (h : v.items = .ok xs) (hx : x ∈ xs) :
    x.height ≤ v.height := by
  cases v with
  | list ys =>
    cases h
    obtain ⟨y, hy, rfl⟩ := List.mem_map.1 hx
    have hw := height_itemOf_le (.list ys) y
    have := height_le_heightItems hy
    rw [height] at hw ⊢
    omega
  | tuple ys =>
    cases h
    rw [height]
    exact Nat.le_succ_of_le (height_le_heightItems hx)
  | set ys =>
    cases h
    rw [height]
    exact Nat.le_succ_of_le (height_le_heightItems hx)
  | table es =>
    cases h
    obtain ⟨e, he, rfl⟩ := List.mem_map.1 hx
    have := height_le_heightEntries he
    rw [height]
    omega
  | text s =>
    cases h
    obtain ⟨c, -, rfl⟩ := List.mem_map.1 hx
    simp [height]
  | octets bytes =>
    cases h
    obtain ⟨b, -, rfl⟩ := List.mem_map.1 hx
    simp [height]
  | _ => cases h

end NodeScript.Value
