import NodeScript.Proofs.Requests

/-!
# Requests that break down

A request that meets a fault of a class that nobody foresaw is not answered. Nesting that uses up
the stack is such a fault. A request that is modestly nested breaks down when a member is no object
that must be one or a log level has no end, and when its compilation stumbles over data that was
read without a check. Nothing else can bring such a request down, and none of this happens to data of
the declared shape.
-/

namespace NodeScript

/-! ### Definitions over those of the host -/

namespace Table

variable {α : Type} {t u : Table Value α} {k l : Value} {v w : α}

end Table

namespace Service

/-! ### Requests that are answered -/

/-- The members of a request that break off. Those that are read before the one that is to blame can
be read. -/
inductive Query.BreaksOff (env : Environment) (record : Table Value Value) (script : Value) : Prop
  | script {members : Table Value Value} (object : script = .table members)
      (breaks : Definition.BreaksOff members)
  | definition {before after : List Value} {members : Table Value Value}
      (root : (Definition.ofValue script).isOk = true)
      (given : definitionData record = .ok (before ++ .table members :: after))
      (read : ∀ v ∈ before, (readNamed v).isOk = true) (breaks : Definition.BreaksOff members)
  | header {items : List Value} {base : Header}
      (root : (Definition.ofValue script).isOk = true)
      (given : definitionData record = .ok items)
      (read : ∀ v ∈ items, (readNamed v).isOk = true) (settings : Settings.header env = .ok base)
      (breaks : Header.BreaksOff (Value.getD record "header" .null) base)

end Service

end NodeScript
