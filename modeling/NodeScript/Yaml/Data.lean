import NodeScript.Value.SetOrder
import NodeScript.Yaml.Datum
import NodeScript.Yaml.Graph

/-!
# Values of documents

The values that YAML documents stand for. Only the kinds of YAML itself are read. A document is gone
through from its outermost node inwards, level by level, and the first fault that is met is
reported. Each node is looked at once, also if it has aliases.

The value of a node shows the nodes inside it as often as they stand there. Inside itself a node
makes a loop. The values of the outermost mapping are taken each on its own.
-/

namespace NodeScript.Yaml

/-- Whether a tag is one of collections, whose parts are looked at later. -/
def Tag.isCollection : Tag → Bool
  | .sequence | .mapping | .set | .orderedMap | .pairs => true
  | _ => false

/-- What is known of a node. -/
inductive Mark where
  | unseen
  | scalar (v : Value)
  | collection

/-- A document that is being gone through. -/
structure Survey where
  graph : Graph
  marks : Array Mark
  /-- The collections that are still to be opened. -/
  pending : List Nat
  /-- A bound on the steps of one merge. -/
  bound : Nat

/-- Going through a document. -/
abbrev Surveying := StateT Survey (Except Stop)

namespace Survey

/-- The text of a node that is read as a scalar; a mapping may give it under a key of its own. -/
def scalarText (g : Graph) : (bound : Nat) → Nat → Except Stop String
  | 0, _ => .error (.fault .tooNested)
  | bound + 1, n =>
    match g.content n with
    | .scalar _ s => .ok s
    | .sequence _ _ => .error .invalid
    | .mapping _ entries =>
      match entries.find? fun e => g.hasKind .value e.1 with
      | some e => scalarText g bound e.2
      | none => .error .invalid

/-- The value of a node that is read as a scalar. A time must be a scalar itself. -/
def scalarOf (g : Graph) (n : Nat) : Except Stop Value := do
  let c := g.content n
  let value (s : String) : Except Stop Value :=
    match c.tag, c with
    | .scalar .timestamp, .mapping _ _ => .error (.fault .wrongKind)
    | tag, _ => scalarValue tag s
  value (← scalarText g (g.nodes.size + 1) n)

/-- The mark of a node. -/
def mark (s : Survey) (n : Nat) : Mark :=
  s.marks.getD n .unseen

/-- Looks at a node, unless that has been done. -/
def look (n : Nat) : Surveying Unit := do
  let s ← get
  match s.mark n with
  | .unseen =>
    if (s.graph.content n).tag.isCollection then
      set { s with marks := s.marks.setIfInBounds n .collection, pending := s.pending ++ [n] }
    else
      let v ← scalarOf s.graph n
      set { s with marks := s.marks.setIfInBounds n (.scalar v) }
  | _ => return ()

/-- Looks at the entries of a mapping; the kinds of collections cannot be keys. -/
def lookEntries : List (Nat × Nat) → Surveying Unit
  | [] => return ()
  | (k, v) :: rest => do
    look k
    if ((← get).graph.content k).tag.isCollection then throw .invalid
    look v
    lookEntries rest

/-- Looks at the pairs of an ordered mapping, each a mapping with a single entry. -/
def lookPairs : List Nat → Surveying Unit
  | [] => return ()
  | n :: rest => do
    match (← get).graph.content n with
    | .mapping _ [(k, v)] =>
      look k
      look v
      lookPairs rest
    | _ => throw .invalid

/-- Looks at the parts of a collection, which must have the form that its tag asks for. -/
def openNode (n : Nat) : Surveying Unit := do
  let s ← get
  match s.graph.content n with
  | .sequence .sequence items => items.forM look
  | .sequence .orderedMap items => lookPairs items
  | .sequence .pairs items => lookPairs items
  | .mapping tag _ =>
    match tag with
    | .mapping | .set =>
      let graph ← s.graph.mergeInto n [] s.bound
      set { s with graph }
      match graph.content n with
      | .mapping _ entries => lookEntries entries
      | _ => throw .invalid
    | _ => throw .invalid
  | _ => throw .invalid

/-- Opens the collections that are pending, within a bound on their number. -/
def openAll : (bound : Nat) → Surveying Unit
  | 0 => return ()
  | bound + 1 => do
    let s ← get
    match s.pending with
    | [] => return ()
    | n :: rest =>
      set { s with pending := rest }
      openNode n
      openAll bound

/-- The survey of a document. -/
def ofGraph (g : Graph) (root : Nat) : Except Stop Survey := do
  let count := g.nodes.size
  let start : Survey := ⟨g, Array.replicate count .unseen, [], g.mergeBound⟩
  let (_, s) ← (do look root; openAll count : Surveying Unit).run start
  return s

/-! ### Values -/

/-- The nodes around a place, innermost first, with the shapes of their values; a pair has no
number. -/
abbrev Around := List (Option Nat × Shape)

/-- The value of a node at a place, within a bound on the depth. -/
def valueAt (s : Survey) : (bound : Nat) → Around → Nat → Value
  | 0, _, _ => .null
  | bound + 1, around, n =>
    match s.mark n, around.findIdx? (fun a => a.1 == some n) with
    | .scalar v, _ => v
    | _, some up => .loop ((around.map Prod.snd).getD up .list) up
    | _, none =>
      match s.graph.content n with
      | .scalar _ _ => .null
      | .sequence tag items =>
        let inside := (some n, .list) :: around
        match tag with
        | .sequence => .list (items.map (s.valueAt bound inside))
        | _ =>
          .list (items.map fun item =>
            match s.graph.content item with
            | .mapping _ [(k, v)] =>
              .tuple [s.valueAt bound ((none, .list) :: inside) k,
                s.valueAt bound ((none, .list) :: inside) v]
            | _ => .null)
      | .mapping tag entries =>
        let inside := (some n, .table) :: around
        let t : Table Value Value := entries.foldl (fun t e =>
          t.put (s.valueAt bound inside e.1) (s.valueAt bound inside e.2)) []
        match tag with
        | .set => .set (Value.setOrder t.keys)
        | _ => .table t

/-- The value of a node on its own. -/
def value (s : Survey) (n : Nat) : Value :=
  s.valueAt (s.graph.nodes.size + 1) [] n

/-- The value of a document. -/
def document (s : Survey) (root : Nat) : Value :=
  match s.graph.content root with
  | .mapping .mapping entries =>
    .table (entries.foldl (fun t e => Table.put t (s.value e.1) (s.value e.2)) [])
  | _ => s.value root

end Survey

/-- Reads a YAML text with at most one document; no document is null. -/
def read (s : String) : Except Stop Value := do
  match ← Node.ofText s.toList with
  | none => return .null
  | some n =>
    let (g, root) := Graph.ofNode n
    let survey ← Survey.ofGraph g root
    return survey.document root

end NodeScript.Yaml
