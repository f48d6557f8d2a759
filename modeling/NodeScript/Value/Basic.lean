import NodeScript.Calendar
import NodeScript.Number.Double

/-!
# Values

A value is a piece of loosely typed data, as an editor sends it or as a file of variables holds it.
Tables keep their entries in the order in which the keys first came, and their keys can be any
values that have an identity of their own.

A list or table may contain itself. Such data is finite here: `loop shape n` stands for the
container that is reached by going out `n` levels from the innermost one around the loop.
-/

namespace NodeScript

/-- The containers that can contain themselves. -/
inductive Shape where
  | list
  | table
deriving DecidableEq

/-- Loosely typed data. -/
inductive Value where
  | null
  | bool (b : Bool)
  | int (n : Int)
  | real (x : Double)
  | text (s : String)
  | octets (bytes : List UInt8)
  | date (d : Date)
  | moment (t : Moment)
  | list (items : List Value)
  | tuple (items : List Value)
  | set (items : List Value)
  | table (entries : List (Value × Value))
  /-- An object of the host program, known by its label only. -/
  | foreign (label : String)
  | loop (shape : Shape) (up : Nat)
deriving Inhabited

namespace Value

instance : Coe String Value := ⟨.text⟩

/-- Whether a value counts as present: it is not null, false, zero or empty. -/
def isTruthy : Value → Bool
  | .null => false
  | .bool b => b
  | .int n => n != 0
  | .real x => !x.isZero
  | .text s => !s.isEmpty
  | .octets bytes => !bytes.isEmpty
  | .date _ => true
  | .moment _ => true
  | .list items => !items.isEmpty
  | .tuple items => !items.isEmpty
  | .set items => !items.isEmpty
  | .table entries => !entries.isEmpty
  | .foreign _ => true
  | .loop _ _ => true

/-- The value itself if it counts as present, and another one otherwise. -/
def orElse (v w : Value) : Value :=
  if v.isTruthy then v else w

/-- The name of the kind of a value in messages. -/
def kindName : Value → String
  | .null => "NoneType"
  | .bool _ => "bool"
  | .int _ => "int"
  | .real _ => "float"
  | .text _ => "str"
  | .octets _ => "bytes"
  | .date _ => "datetime.date"
  | .moment _ => "datetime.datetime"
  | .list _ => "list"
  | .tuple _ => "tuple"
  | .set _ => "set"
  | .table _ => "dict"
  | .foreign _ => "Opaque"
  | .loop .list _ => "list"
  | .loop .table _ => "dict"

/-! ### Identity -/

mutual

/-- Whether two values are built alike. -/
def beq : Value → Value → Bool
  | .null, .null => true
  | .bool a, .bool b => a == b
  | .int m, .int n => m == n
  | .real x, .real y => x == y
  | .text s, .text t => s == t
  | .octets xs, .octets ys => xs == ys
  | .date d, .date e => d == e
  | .moment t, .moment u => t == u
  | .list xs, .list ys => beqItems xs ys
  | .tuple xs, .tuple ys => beqItems xs ys
  | .set xs, .set ys => beqItems xs ys
  | .table xs, .table ys => beqEntries xs ys
  | .foreign a, .foreign b => a == b
  | .loop s m, .loop t n => s == t && m == n
  | _, _ => false
termination_by structural v => v

/-- Whether two lists have items that are built alike. -/
def beqItems : List Value → List Value → Bool
  | [], [] => true
  | x :: xs, y :: ys => beq x y && beqItems xs ys
  | _, _ => false
termination_by structural xs => xs

/-- Whether two tables have entries that are built alike. -/
def beqEntries : List (Value × Value) → List (Value × Value) → Bool
  | [], [] => true
  | (k, v) :: xs, (l, w) :: ys => beq k l && beq v w && beqEntries xs ys
  | _, _ => false
termination_by structural xs => xs

end

mutual

theorem beq_iff (v w : Value) : beq v w = true ↔ v = w := by
  cases v with
  | list xs => cases w <;> simp [beq, beqItems_iff xs]
  | tuple xs => cases w <;> simp [beq, beqItems_iff xs]
  | set xs => cases w <;> simp [beq, beqItems_iff xs]
  | table xs => cases w <;> simp [beq, beqEntries_iff xs]
  | _ => cases w <;> simp [beq]
termination_by structural v

theorem beqItems_iff (xs ys : List Value) : beqItems xs ys = true ↔ xs = ys := by
  match xs, ys with
  | [], [] => simp [beqItems]
  | [], _ :: _ => simp [beqItems]
  | _ :: _, [] => simp [beqItems]
  | x :: xs, y :: ys => simp [beqItems, beq_iff x, beqItems_iff xs]
termination_by structural xs

theorem beqEntries_iff (xs ys : List (Value × Value)) : beqEntries xs ys = true ↔ xs = ys := by
  match xs, ys with
  | [], [] => simp [beqEntries]
  | [], _ :: _ => simp [beqEntries]
  | (_, _) :: _, [] => simp [beqEntries]
  | (k, v) :: xs, (l, w) :: ys => simp [beqEntries, beq_iff k, beq_iff v, beqEntries_iff xs]
termination_by structural xs

end

instance : DecidableEq Value := fun v w => decidable_of_iff _ (beq_iff v w)

/-! ### Numbers -/

/-- The number that a value is, where truth values count as zero and one. -/
inductive Numeric where
  | int (n : Int)
  | real (x : Double)

/-- A value as a number. -/
def numeric? : Value → Option Numeric
  | .bool b => some (.int (if b then 1 else 0))
  | .int n => some (.int n)
  | .real x => some (.real x)
  | _ => none

namespace Numeric

/-- How a number compares with an integer; a not-a-number code compares with none. -/
def compareInt? : Numeric → Int → Option Ordering
  | .int m, n => some (compare m n)
  | .real x, n => x.compareInt? n

/-- Whether two numbers have the same value. The constant for not-a-number is the same as itself,
other such codes are the same as none. -/
def same : Numeric → Numeric → Bool
  | .int m, .int n => m == n
  | .int m, .real y => y.compareInt? m == some .eq
  | .real x, .int n => x.compareInt? n == some .eq
  | .real x, .real y =>
    (x == y && (!x.isNaN || x == Double.nan)) || (x.isZero && y.isZero)

end Numeric

/-! ### Equality -/

/-- Whether a value is a given number. -/
def sameNumber (n : Numeric) (w : Value) : Bool :=
  match w.numeric? with
  | some m => n.same m
  | none => false

mutual

/-- Whether two values are equal as data: numbers by value, lists in order, tables by entry. -/
def same : Value → Value → Bool
  | .null, .null => true
  | .bool b, w => sameNumber (.int (if b then 1 else 0)) w
  | .int n, w => sameNumber (.int n) w
  | .real x, w => sameNumber (.real x) w
  | .text s, .text t => s == t
  | .octets xs, .octets ys => xs == ys
  | .date d, .date e => d == e
  | .moment t, .moment u => t.same u
  | .list xs, .list ys => sameItems xs ys
  | .tuple xs, .tuple ys => sameItems xs ys
  | .set xs, .set ys => xs.length == ys.length && sameMembers xs ys
  | .table xs, .table ys => xs.length == ys.length && sameEntries xs ys
  | _, _ => false
termination_by structural v => v

/-- Whether two lists have equal items in the same order. -/
def sameItems : List Value → List Value → Bool
  | [], [] => true
  | x :: xs, y :: ys => same x y && sameItems xs ys
  | _, _ => false
termination_by structural xs => xs

/-- Whether every item of the first list is in the second. -/
def sameMembers : List Value → List Value → Bool
  | [], _ => true
  | x :: xs, ys => ys.any (fun y => same x y) && sameMembers xs ys
termination_by structural xs => xs

/-- Whether every entry of the first table is in the second. -/
def sameEntries : List (Value × Value) → List (Value × Value) → Bool
  | [], _ => true
  | (k, v) :: xs, ys => ys.any (fun y => same k y.1 && same v y.2) && sameEntries xs ys
termination_by structural xs => xs

end

mutual

/-- The first part of a value that keeps it from being a key, if there is one. -/
def unkeyable? : Value → Option Value
  | .list items => some (.list items)
  | .set items => some (.set items)
  | .table entries => some (.table entries)
  | .loop shape up => some (.loop shape up)
  | .tuple items => unkeyableItem? items
  | _ => none

/-- The first part of some items that keeps them from being a key. -/
def unkeyableItem? : List Value → Option Value
  | [] => none
  | x :: xs => (unkeyable? x).or (unkeyableItem? xs)

end

end Value

end NodeScript
