import NodeScript.Value.Basic

/-!
# Tables

A table holds its entries in the order in which their keys first came. Writing to a key that is
there replaces the value and keeps the place.
-/

namespace NodeScript

/-- Types whose members name the entries of tables. -/
class TableKey (κ : Type) where
  /-- Whether two keys name the same entry. -/
  same : κ → κ → Bool

instance : TableKey String := ⟨fun a b => a == b⟩

instance : TableKey Value := ⟨Value.same⟩

/-- Entries by key, in the order of first writing. -/
abbrev Table (κ α : Type) := List (κ × α)

namespace Table

variable {κ α : Type} [TableKey κ]

/-- The value under a key. -/
def get? (t : Table κ α) (k : κ) : Option α :=
  match t with
  | [] => none
  | (k', v) :: rest => if TableKey.same k' k then some v else get? rest k

/-- Whether a key has an entry. -/
def hasKey (t : Table κ α) (k : κ) : Bool :=
  t.any fun e => TableKey.same e.1 k

/-- Writes a value under a key. -/
def put (t : Table κ α) (k : κ) (v : α) : Table κ α :=
  match t with
  | [] => [(k, v)]
  | (k', w) :: rest => if TableKey.same k' k then (k', v) :: rest else (k', w) :: put rest k v

/-- Drops the entry under a key. -/
def drop (t : Table κ α) (k : κ) : Table κ α :=
  t.filter fun e => !TableKey.same e.1 k

/-- Writes the entries of another table, in their order. -/
def merge (t u : Table κ α) : Table κ α :=
  u.foldl (fun t e => t.put e.1 e.2) t

/-- The keys, in order. -/
def keys (t : Table κ α) : List κ :=
  t.map Prod.fst

end Table

end NodeScript
