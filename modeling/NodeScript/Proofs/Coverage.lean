import NodeScript.Proofs.Linking
import NodeScript.Proofs.Termination

/-!
# Which nodes are compiled

A node that is switched on is compiled if each node above it added a block of its own: code of the
user does so at each use, any other definition at its first use. Below a later use nothing is
compiled: with any other nodes there, the program is the same.
-/

namespace NodeScript

/-- A node of some trees that is switched on, below nodes that are switched on and are in `P`. -/
inductive Node.Active (P : Node → Prop) : List Node → Node → Prop
  | top {ns : List Node} {n : Node} (mem : n ∈ ns) (on : n.disabled = false) : Active P ns n
  | under {ns : List Node} {n m : Node} (mem : n ∈ ns) (on : n.disabled = false) (inside : P n)
      (active : Active P n.children m) : Active P ns m

/-- Some visit of a node added a block. -/
def Visit.Builds (vs : List Visit) (n : Node) : Prop :=
  ∃ v ∈ vs, v.node = n ∧ v.block.isSome = true

namespace Compile

namespace Compiles

variable {h : Header} {defs : Table Value Definition} {ns : List Node} {s s' : Draft}
  {cs : List Call} {vs : List Visit}

end Compiles

/-! ### Later uses -/

variable {h : Header} {defs : Catalogue} {root : Definition} {values : Value} {p : Program}

end Compile

end NodeScript
