import NodeScript.Value.Access

/-!
# Nodes

A node of a script tree asks for one use of a definition: it names the definition, gives values for
its parameters and has child nodes, whose calls go into the body of the definition.
-/

namespace NodeScript

/-- One use of a definition in a script tree. -/
inductive Node where
  | mk (name : Value) (disabled : Bool) (values : Table Value Value) (children : List Node)
deriving Inhabited

namespace Node

/-- The name of the definition that the node uses. -/
def name : Node → Value
  | .mk name _ _ _ => name

/-- Whether the node is switched off. -/
def disabled : Node → Bool
  | .mk _ disabled _ _ => disabled

/-- The parameter values by name. -/
def values : Node → Table Value Value
  | .mk _ _ values _ => values

/-- The child nodes. -/
def children : Node → List Node
  | .mk _ _ _ children => children

/-! ### Identity -/

mutual

/-- Whether two nodes are built alike. -/
def beq : Node → Node → Bool
  | .mk name disabled values children, .mk name' disabled' values' children' =>
    name == name' && disabled == disabled' && values == values' && beqAll children children'
termination_by structural n => n

/-- Whether two lists have nodes that are built alike. -/
def beqAll : List Node → List Node → Bool
  | [], [] => true
  | n :: ns, m :: ms => beq n m && beqAll ns ms
  | _, _ => false
termination_by structural ns => ns

end

mutual

theorem beq_iff (n m : Node) : beq n m = true ↔ n = m := by
  match n, m with
  | .mk _ _ _ children, .mk _ _ _ _ => simp [beq, beqAll_iff children, and_assoc]
termination_by structural n

theorem beqAll_iff (ns ms : List Node) : beqAll ns ms = true ↔ ns = ms := by
  match ns, ms with
  | [], [] => simp [beqAll]
  | [], _ :: _ => simp [beqAll]
  | _ :: _, [] => simp [beqAll]
  | n :: ns, m :: ms => simp [beqAll, beq_iff n, beqAll_iff ns]
termination_by structural ns

end

instance : DecidableEq Node := fun n m => decidable_of_iff _ (beq_iff n m)

/-! ### Reading and writing -/

/-- Whether a record switches its node off, under either of two names. -/
def isDisabled (record : Table Value Value) : Bool :=
  (Value.getD record "disabled" (Value.getD record "disable" (.bool false))).isTruthy

/-- The data of the children of a node; a missing entry stands for no children. -/
def childData (record : Table Value Value) : Value :=
  (Value.getD record "children" .null).orElse (.list [])

theorem height_childData_lt {v c : Value} {record : Table Value Value} {cs : List Value}
    (hv : v.entries = .ok record) (hc : (childData record).items = .ok cs) (h : c ∈ cs) :
    c.height < v.height := by
  cases v with
  | table es =>
    obtain rfl : es = record := by cases hv; rfl
    have h₁ := Value.height_items_le hc h
    have h₃ := Value.height_getD_le es "children" .null
    rw [childData] at hc h₁
    by_cases hz : (Value.getD es "children" .null).isTruthy
    · rw [Value.orElse, if_pos hz] at h₁
      simp only [Value.height] at h₃ ⊢
      omega
    · rw [Value.orElse, if_neg hz] at hc
      cases hc
      cases h
  | loop shape up => cases shape <;> cases hv
  | _ => cases hv

/-- Reads a node with all its children. -/
def ofValue (v : Value) : Except Fault Node :=
  match hv : v.entries with
  | .error fault => .error fault
  | .ok record => do
    let name ← Value.require record "name"
    let values ← ((Value.getD record "values" .null).orElse (.table [])).toTable
    match hc : (childData record).items with
    | .error fault => .error fault
    | .ok data =>
      let children ← data.attach.mapM fun ⟨c, h⟩ =>
        have := height_childData_lt hv hc h
        ofValue c
      return .mk name (isDisabled record) values children
termination_by v.height

mutual

/-- Writes a node with all its children. -/
def toValue : Node → Value
  | .mk name disabled values children =>
    .table [("name", name), ("disabled", .bool disabled), ("values", .table values),
      ("children", .list (toValues children))]

/-- Writes some nodes. -/
def toValues : List Node → List Value
  | [] => []
  | n :: ns => n.toValue :: toValues ns

end

/-- Reads a sequence of nodes; nothing at all is no nodes. -/
def listOfValue (v : Value) : Except Fault (List Node) := do
  let data ← (v.orElse (.list [])).items
  data.mapM ofValue

end Node

end NodeScript
