import NodeScript.Text.Digit
import NodeScript.Value.Access

/-!
# Paths

A path begins with the name of a field and goes on into its value: by `[key]` to a part of it, by
`.name` to a property of it. Numbers have their real and imaginary parts and, if they are whole,
numerator and denominator; every value has its kind, which has a name and the kinds it extends.
-/

namespace NodeScript.Template

/-! ### Steps -/

/-- A step of a path. -/
inductive Step where
  | property (name : String)
  | position (n : Nat)
  | key (s : String)

/-- The number that a run of digits denotes. -/
def number? (cs : List Char) : Option Nat :=
  if cs.isEmpty then none else (cs.mapM Text.digitValue?).map (Text.ofDigits 10)

/-- The greatest number that can be written in a template. -/
def greatestNumber : Nat := 0x7fffffffffffffff

/-- The step that a key in brackets stands for. -/
def Step.ofKey? (key : List Char) : Option Step :=
  match number? key with
  | some n => if n ≤ greatestNumber then some (.position n) else none
  | none => if key.isEmpty then none else some (.key (String.ofList key))

/-- Where a reader stands in the steps of a path. -/
inductive StepPlace where
  | between
  | property (done : List Char)
  | bracket (done : List Char)

/-- The steps of a path after its name. -/
def stepsFrom? : StepPlace → List Char → Option (List Step)
  | .between, [] => some []
  | .property done, [] => if done.isEmpty then none else some [.property (String.ofList done)]
  | .bracket _, [] => none
  | .between, c :: cs =>
    if c == '.' then stepsFrom? (.property []) cs
    else if c == '[' then stepsFrom? (.bracket []) cs
    else none
  | .property done, c :: cs =>
    if c != '.' && c != '[' then stepsFrom? (.property (done ++ [c])) cs
    else if done.isEmpty then none
    else do
      let rest ← stepsFrom? (if c == '.' then .property [] else .bracket []) cs
      some (.property (String.ofList done) :: rest)
  | .bracket done, c :: cs =>
    if c != ']' then stepsFrom? (.bracket (done ++ [c])) cs
    else do
      let step ← Step.ofKey? done
      let rest ← stepsFrom? .between cs
      some (step :: rest)

/-! ### Kinds -/

/-- The kind of a value, by its name. -/
structure ValueKind where
  name : String

namespace ValueKind

/-- The kind of a value. -/
def ofValue (v : Value) : ValueKind := ⟨v.kindName⟩

/-- The kind of everything. -/
def object : ValueKind := ⟨"object"⟩

/-- The kinds that a kind extends, nearest first. -/
def ancestors (k : ValueKind) : List ValueKind :=
  if k.name == "object" then []
  else if k.name == "bool" then [⟨"int"⟩, object]
  else [object]

/-- The text of a kind. -/
def render (k : ValueKind) : String := "<class '" ++ k.name ++ "'>"

end ValueKind

/-! ### Targets -/

/-- What a path can lead to. -/
inductive Target where
  | value (v : Value)
  | kind (k : ValueKind)
  | kinds (ks : List ValueKind)

namespace Target

/-- A property of a value. -/
def valueProperty? (v : Value) (name : String) : Option Target :=
  match name, v with
  | "__class__", v => some (.kind (.ofValue v))
  | "real", .bool b => some (.value (.int (if b then 1 else 0)))
  | "real", .int n => some (.value (.int n))
  | "real", .real x => some (.value (.real x))
  | "imag", .bool _ => some (.value (.int 0))
  | "imag", .int _ => some (.value (.int 0))
  | "imag", .real _ => some (.value (.real (Double.zero false)))
  | "numerator", .bool b => some (.value (.int (if b then 1 else 0)))
  | "numerator", .int n => some (.value (.int n))
  | "denominator", .bool _ => some (.value (.int 1))
  | "denominator", .int _ => some (.value (.int 1))
  | _, _ => none

/-- A property of a kind. -/
def kindProperty? (k : ValueKind) (name : String) : Option Target :=
  match name with
  | "__class__" => some (.kind ⟨"type"⟩)
  | "__name__" => some (.value (.text k.name))
  | "__qualname__" => some (.value (.text k.name))
  | "__module__" => some (.value (.text "builtins"))
  | "__mro__" => some (.kinds (k :: k.ancestors))
  | "__bases__" => some (.kinds (k.ancestors.take 1))
  | "__base__" => some ((k.ancestors.head?.map .kind).getD (.value .null))
  | _ => none

/-- The part of a value under a key. -/
def part? (v : Value) (step : Step) : Option Value :=
  match v, step with
  | .text s, .position n => s.toList[n]?.map fun c => .text (String.singleton c)
  | .list items, .position n => items[n]?.map (Value.itemOf (.list items))
  | .tuple items, .position n => items[n]?
  | .table entries, .position n => Table.get? entries (.int n)
  | .table entries, .key s => Table.get? entries (.text s)
  | _, _ => none

/-- What a step leads to. -/
def next? (t : Target) (step : Step) : Option Target :=
  match t, step with
  | .value v, .property name => valueProperty? v name
  | .value v, step => (part? v step).map .value
  | .kind k, .property name => kindProperty? k name
  | .kinds _, .property "__class__" => some (.kind ⟨"tuple"⟩)
  | .kinds ks, .position n => ks[n]?.map .kind
  | _, _ => none

/-- What a path leads to. A name of digits only, or of nothing, is no name. -/
def ofPath? (fields : Table String Value) (path : List Char) : Option Target := do
  let name := path.takeWhile fun c => c != '.' && c != '['
  if name.isEmpty || (number? name).isSome then none
  else
    let v ← fields.get? (String.ofList name)
    let steps ← stepsFrom? .between (path.drop name.length)
    steps.foldlM next? (.value v)

/-- The quoted form of a target. -/
def quoted : Target → String
  | .value v => v.quoted
  | .kind k => k.render
  | .kinds [k] => Value.enclose "(" ",)" [k.render]
  | .kinds ks => Value.enclose "(" ")" (ks.map ValueKind.render)

/-- The text of a target on its own. -/
def render : Target → String
  | .value v => v.render
  | t => t.quoted

end Target

end NodeScript.Template
