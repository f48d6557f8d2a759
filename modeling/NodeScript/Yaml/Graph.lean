import NodeScript.Yaml.Node

/-!
# Documents as graphs

A document is a graph: its nodes have numbers, in the order in which they begin, and collections
hold the numbers of their parts. An alias is the number of the node that has the anchor, so that a
node can stand in several places and inside itself.

A mapping can ask for the entries of other mappings, which then come before its own. A mapping that
is being merged shows others only what is left of it.
-/

namespace NodeScript.Yaml

/-- A node, with its parts by number. -/
inductive Content where
  | scalar (tag : Tag) (text : String)
  | sequence (tag : Tag) (items : List Nat)
  | mapping (tag : Tag) (entries : List (Nat × Nat))

/-- The tag of a node. -/
def Content.tag : Content → Tag
  | .scalar t _ => t
  | .sequence t _ => t
  | .mapping t _ => t

/-- The nodes of a document. -/
structure Graph where
  nodes : Array Content

namespace Graph

/-- The content of a node. -/
def content (g : Graph) (n : Nat) : Content :=
  g.nodes.getD n (.scalar .unknown "")

/-- Whether a node is a scalar of a kind. -/
def hasKind (g : Graph) (k : ScalarKind) (n : Nat) : Bool :=
  match g.content n with
  | .scalar (.scalar j) _ => j == k
  | _ => false

/-- Replaces the content of a node. -/
def setContent (g : Graph) (n : Nat) (c : Content) : Graph :=
  ⟨g.nodes.setIfInBounds n c⟩

end Graph

/-! ### Numbering -/

/-- The nodes that have numbers, and the numbers of anchors. -/
structure Numbering where
  graph : Graph
  anchors : List (String × Nat)

namespace Numbering

/-- Gives the next number to a node. -/
def add (anchor : Option String) (c : Content) : StateM Numbering Nat := do
  let s ← get
  let n := s.graph.nodes.size
  let anchors := match anchor with
    | some name => (name, n) :: s.anchors
    | none => s.anchors
  set (⟨⟨s.graph.nodes.push c⟩, anchors⟩ : Numbering)
  return n

/-- Gives a node its parts. -/
def complete (n : Nat) (c : Content) : StateM Numbering Unit :=
  modify fun s => { s with graph := s.graph.setContent n c }

mutual

/-- Numbers a node with its parts; the result is the number of the node. -/
def number (anchor : Option String) : Node → StateM Numbering Nat
  | .scalar tag text => add anchor (.scalar tag text)
  | .sequence tag items => do
    let n ← add anchor (.sequence tag [])
    let items ← numberItems items
    complete n (.sequence tag items)
    return n
  | .mapping tag entries => do
    let n ← add anchor (.mapping tag [])
    let entries ← numberEntries entries
    complete n (.mapping tag entries)
    return n
  | .anchored name node => number (some name) node
  | .alias name => do return ((← get).anchors.lookup name).getD 0
termination_by structural n => n

/-- Numbers some items. -/
def numberItems : List Node → StateM Numbering (List Nat)
  | [] => return []
  | x :: xs => do
    let n ← number none x
    let ns ← numberItems xs
    return n :: ns
termination_by structural xs => xs

/-- Numbers some entries, each key before its value. -/
def numberEntries : List (Node × Node) → StateM Numbering (List (Nat × Nat))
  | [] => return []
  | (k, v) :: rest => do
    let m ← number none k
    let n ← number none v
    let es ← numberEntries rest
    return (m, n) :: es
termination_by structural es => es

end

end Numbering

/-- The graph of a document and the number of its outermost node. -/
def Graph.ofNode (n : Node) : Graph × Nat :=
  let (root, s) := (Numbering.number none n).run ⟨⟨#[]⟩, []⟩
  (s.graph, root)

/-! ### Merging -/

namespace Graph

/-- A key that stands for the value of its mapping is a text when it is used as a key. -/
def plainKey (g : Graph) (k : Nat) : Graph :=
  match g.content k with
  | .scalar (.scalar .value) s => g.setContent k (.scalar (.scalar .text) s)
  | _ => g

/-- The entries of a mapping with the first one that merges split off. -/
def splitMerge? (g : Graph) (entries : List (Nat × Nat)) : Option (Nat × List (Nat × Nat)) :=
  match entries.findIdx? fun e => g.hasKind .merge e.1 with
  | some i => (entries[i]?).map fun e => (e.2, entries.eraseIdx i)
  | none => none

mutual

/-- Merges into a mapping the entries that it asks for, within a bound on the number of entries
that merge. `merged` are those that come before its own. -/
def mergeInto (n : Nat) (merged : List (Nat × Nat)) : (bound : Nat) → Graph → Except Stop Graph
  | 0, g => .ok g
  | bound + 1, g =>
    match g.content n with
    | .mapping tag entries =>
      match g.splitMerge? entries with
      | none =>
        let g := entries.foldl (fun g e => g.plainKey e.1) g
        .ok (g.setContent n (.mapping tag (merged ++ entries)))
      | some (source, rest) => do
        let (more, g) ← mergeSource source bound (g.setContent n (.mapping tag rest))
        mergeInto n (merged ++ more) bound g
    | _ => .error .invalid

/-- The entries that a node gives to be merged: those of a mapping, or of a sequence of mappings, of
which the first wins. -/
def mergeSource (source : Nat) : (bound : Nat) → Graph → Except Stop (List (Nat × Nat) × Graph)
  | 0, g => .ok ([], g)
  | bound + 1, g =>
    match g.content source with
    | .mapping _ _ => mergeMapping source bound g
    | .sequence _ items => do
      let (parts, g) ← mergeItems items bound g
      return (parts.reverse.flatten, g)
    | .scalar _ _ => .error .invalid

/-- The entries of a mapping after merging. -/
def mergeMapping (n : Nat) : (bound : Nat) → Graph → Except Stop (List (Nat × Nat) × Graph)
  | 0, g => .ok ([], g)
  | bound + 1, g => do
    let g ← mergeInto n [] bound g
    match g.content n with
    | .mapping _ entries => return (entries, g)
    | _ => throw .invalid

/-- The entries of some mappings after merging. -/
def mergeItems (items : List Nat) : (bound : Nat) → Graph →
    Except Stop (List (List (Nat × Nat)) × Graph)
  | 0, g => .ok ([], g)
  | bound + 1, g =>
    match items with
    | [] => .ok ([], g)
    | n :: rest => do
      let (entries, g) ← mergeMapping n bound g
      let (more, g) ← mergeItems rest bound g
      return (entries :: more, g)

end

/-- The number of parts of a node. -/
def partCount : Content → Nat
  | .scalar _ _ => 0
  | .sequence _ items => items.length
  | .mapping _ entries => entries.length

/-- A bound on the number of steps that merging takes: each entry that merges is gone through once,
with at most one step for each part of the document between two of them. -/
def mergeBound (g : Graph) : Nat :=
  let parts := g.nodes.foldl (fun n c => n + partCount c) 0
  (parts + 1) * (parts + 4)

end Graph

end NodeScript.Yaml
