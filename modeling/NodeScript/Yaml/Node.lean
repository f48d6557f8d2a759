import NodeScript.Yaml.Scalar
import NodeScript.Yaml.Scan

/-!
# From tokens to nodes

A YAML document is a node: a scalar, a sequence or a mapping, each with a tag that tells its kind,
or an alias for a node that has an anchor. Readers take tokens from the front of a feed.
-/

namespace NodeScript.Yaml

/-- The kind of a node. -/
inductive Tag where
  /-- A kind of plain scalars. -/
  | scalar (k : ScalarKind)
  | sequence
  | mapping
  | set
  | orderedMap
  | pairs
  | binary
  /-- A kind that is not safe to read. -/
  | unknown

/-- The address at which the kinds of YAML itself are named. -/
def coreStem : String := "tag:yaml.org,2002:"

/-- The kinds of YAML itself. -/
def coreTags : List (String × Tag) :=
  [("bool", .scalar .bool), ("float", .scalar .float), ("int", .scalar .int),
   ("merge", .scalar .merge), ("null", .scalar .null), ("timestamp", .scalar .timestamp),
   ("value", .scalar .value), ("str", .scalar .text), ("seq", .sequence), ("map", .mapping),
   ("set", .set), ("omap", .orderedMap), ("pairs", .pairs), ("binary", .binary)]

/-- The kind that a tag names. -/
def Tag.ofName (s : String) : Tag :=
  ((coreTags.find? fun t => coreStem ++ t.1 == s).map Prod.snd).getD .unknown

/-- A part of a document. -/
inductive Node where
  | scalar (tag : Tag) (text : String)
  | sequence (tag : Tag) (items : List Node)
  | mapping (tag : Tag) (entries : List (Node × Node))
  | anchored (name : String) (node : Node)
  | alias (name : String)

/-! ### Feeds -/

/-- Tokens to be read, with what was learned from those before. -/
structure Feed where
  tokens : List Token
  /-- What comes after the last token of a scan that failed. -/
  stop : Option Stop
  /-- The short forms for tags. -/
  handles : List (String × String)
  /-- The anchors so far. -/
  anchors : List String
  /-- The number of collections around the place that is being read. -/
  depth : Nat

/-- Reading from a feed. -/
abbrev Reader := StateT Feed (Except Stop)

namespace Reader

/-- Fails because the text is not well formed. -/
def invalid {α : Type} : Reader α := throw .invalid

/-- The next token. -/
def peek : Reader Token := do
  let f ← get
  match f.tokens with
  | t :: _ => return t
  | [] => throw (f.stop.getD .invalid)

/-- Goes over the next token. -/
def skip : Reader Unit :=
  modify fun f => { f with tokens := f.tokens.drop 1 }

/-- Remembers an anchor, which must be new. -/
def addAnchor (name : String) : Reader Unit := do
  let f ← get
  if f.anchors.contains name then invalid
  else set { f with anchors := name :: f.anchors }

/-- How deep collections may be nested. -/
def nestingLimit : Nat := 488

/-- Reads the inside of a collection. -/
def inside {α : Type} (r : Reader α) : Reader α := do
  let f ← get
  if nestingLimit ≤ f.depth then throw (.fault .tooNested)
  set { f with depth := f.depth + 1 }
  let a ← r
  modify fun f => { f with depth := f.depth - 1 }
  return a

/-- The name that a tag token stands for. -/
def tagName (handle : Option String) (suffix : String) : Reader String := do
  match handle with
  | none => return suffix
  | some h =>
    match (← get).handles.lookup h with
    | some stem => return stem ++ suffix
    | none => invalid

/-! ### Properties -/

/-- What stands before the content of a node. -/
structure Properties where
  anchor : Option String
  tag : Option String

/-- Takes an anchor, if there is one. -/
def takeAnchor : Reader (Option String) := do
  match ← peek with
  | .anchor name => skip; return some name
  | _ => return none

/-- Takes a tag, if there is one. -/
def takeTag : Reader (Option (Option String × String)) := do
  match ← peek with
  | .tag handle suffix => skip; return some (handle, suffix)
  | _ => return none

/-- Takes an anchor and a tag, in either order. -/
def takeProperties : Reader Properties := do
  let first ← takeAnchor
  let tag ← takeTag
  let anchor ← match first, tag with
    | none, some _ => takeAnchor
    | first, _ => pure first
  match tag with
  | none => return ⟨anchor, none⟩
  | some (handle, suffix) => return ⟨anchor, some (← tagName handle suffix)⟩

/-- Whether no tag, or the tag that leaves the kind open, stands before a node. -/
def Properties.isOpen (p : Properties) : Bool :=
  match p.tag with
  | none => true
  | some t => t == "!"

/-- The tag of a collection. -/
def Properties.collectionTag (p : Properties) (default : Tag) : Tag :=
  if p.isOpen then default else Tag.ofName (p.tag.getD "")

/-- The tag of a scalar. -/
def Properties.scalarTag (p : Properties) (text : String) (plain : Bool) : Tag :=
  match p.tag with
  | none => .scalar (if plain then .ofPlain text else .text)
  | some "!" => .scalar (.ofPlain text)
  | some t => .ofName t

/-- A node with its anchor. -/
def Properties.wrap (p : Properties) (n : Node) : Node :=
  match p.anchor with
  | some name => .anchored name n
  | none => n

/-- The node for an empty place. -/
def emptyNode : Node := .scalar (.scalar .null) ""

/-! ### Nodes -/

/-- Whether an entry of a block ends before its content. -/
def endsEntry : Token → Bool
  | .key => true
  | .value => true
  | .blockEnd => true
  | _ => false

/-- Whether an entry of a flow mapping or a flow sequence ends before its content. -/
def endsFlowEntry (close : Token → Bool) : Token → Bool
  | .flowEntry => true
  | t => close t

/-- Whether a token closes a flow sequence. -/
def closesSequence : Token → Bool
  | .flowSequenceEnd => true
  | _ => false

/-- Whether a token closes a flow mapping. -/
def closesMapping : Token → Bool
  | .flowMappingEnd => true
  | _ => false

/-- Takes the mark between the items of a flow collection, which the first item goes without. -/
def takeFlowMark (first : Bool) : Reader Unit := do
  if first then return ()
  match ← peek with
  | .flowEntry => skip
  | _ => invalid

mutual

/-- Takes a node, within a bound on the number of steps. `block` allows block collections,
`indentless` a block sequence at the column of the mapping around it. -/
def takeNode (block indentless : Bool) : (bound : Nat) → Reader Node
  | 0 => invalid
  | bound + 1 => do
    match ← peek with
    | .alias name =>
      skip
      if (← get).anchors.contains name then return .alias name else invalid
    | _ =>
      let p ← takeProperties
      if let some name := p.anchor then addAnchor name
      match ← peek with
      | .blockEntry =>
        if indentless then
          return p.wrap (.sequence (p.collectionTag .sequence) (← inside (takeIndentless bound)))
        else takeEmpty p
      | .scalar text plain =>
        skip
        return p.wrap (.scalar (p.scalarTag text plain) text)
      | .flowSequenceStart =>
        skip
        return p.wrap (.sequence (p.collectionTag .sequence) (← inside (takeFlowItems true bound)))
      | .flowMappingStart =>
        skip
        return p.wrap (.mapping (p.collectionTag .mapping) (← inside (takeFlowEntries true bound)))
      | .blockSequenceStart =>
        if block then
          skip
          return p.wrap (.sequence (p.collectionTag .sequence) (← inside (takeBlockItems bound)))
        else takeEmpty p
      | .blockMappingStart =>
        if block then
          skip
          return p.wrap (.mapping (p.collectionTag .mapping) (← inside (takeBlockEntries bound)))
        else takeEmpty p
      | _ => takeEmpty p

/-- The node for an empty place, where properties must stand for it. -/
def takeEmpty (p : Properties) : Reader Node :=
  if p.anchor.isSome || p.tag.isSome then return p.wrap (.scalar (p.scalarTag "" true) "")
  else invalid

/-- Takes the items of a block sequence. -/
def takeBlockItems : (bound : Nat) → Reader (List Node)
  | 0 => invalid
  | bound + 1 => do
    match ← peek with
    | .blockEntry =>
      skip
      let item ← match ← peek with
        | .blockEntry => pure emptyNode
        | .blockEnd => pure emptyNode
        | _ => takeNode true false bound
      return item :: (← takeBlockItems bound)
    | .blockEnd => skip; return []
    | _ => invalid

/-- Takes the items of a block sequence at the column of the mapping around it. -/
def takeIndentless : (bound : Nat) → Reader (List Node)
  | 0 => invalid
  | bound + 1 => do
    match ← peek with
    | .blockEntry =>
      skip
      let next ← peek
      let item ← match next with
        | .blockEntry => pure emptyNode
        | t => if endsEntry t then pure emptyNode else takeNode true false bound
      return item :: (← takeIndentless bound)
    | _ => return []

/-- Takes the entries of a block mapping. -/
def takeBlockEntries : (bound : Nat) → Reader (List (Node × Node))
  | 0 => invalid
  | bound + 1 => do
    match ← peek with
    | .key =>
      skip
      let key ← takeBlockPart bound
      let value ← takeBlockValue bound
      return (key, value) :: (← takeBlockEntries bound)
    | .blockEnd => skip; return []
    | _ => invalid

/-- Takes a key or a value of a block mapping after its mark. -/
def takeBlockPart : (bound : Nat) → Reader Node
  | 0 => invalid
  | bound + 1 => do
    if endsEntry (← peek) then return emptyNode else takeNode true true bound

/-- Takes the value of a block mapping, which may be missing. -/
def takeBlockValue : (bound : Nat) → Reader Node
  | 0 => invalid
  | bound + 1 => do
    match ← peek with
    | .value => skip; takeBlockPart bound
    | _ => return emptyNode

/-- Takes a key or a value inside a flow collection after its mark. -/
def takeFlowPart (stops : Token → Bool) : (bound : Nat) → Reader Node
  | 0 => invalid
  | bound + 1 => do
    if stops (← peek) then return emptyNode else takeNode false false bound

/-- Takes the value of an entry of a flow collection, which may be missing. -/
def takeFlowValue (close : Token → Bool) : (bound : Nat) → Reader Node
  | 0 => invalid
  | bound + 1 => do
    match ← peek with
    | .value => skip; takeFlowPart (endsFlowEntry close) bound
    | _ => return emptyNode

/-- Takes the items of a flow sequence; an item may be a mapping with a single entry. -/
def takeFlowItems (first : Bool) : (bound : Nat) → Reader (List Node)
  | 0 => invalid
  | bound + 1 => do
    if closesSequence (← peek) then
      skip
      return []
    takeFlowMark first
    match ← peek with
    | .key =>
      skip
      let key ← inside (takeFlowKey closesSequence bound)
      let value ← inside (takeFlowValue closesSequence bound)
      return .mapping .mapping [(key, value)] :: (← takeFlowItems false bound)
    | .flowSequenceEnd => skip; return []
    | _ =>
      let item ← takeNode false false bound
      return item :: (← takeFlowItems false bound)

/-- Takes the key of an entry of a flow collection after its mark. -/
def takeFlowKey (close : Token → Bool) : (bound : Nat) → Reader Node
  | 0 => invalid
  | bound + 1 => do
    match ← peek with
    | .value => return emptyNode
    | _ => takeFlowPart (endsFlowEntry close) bound

/-- Takes the entries of a flow mapping; an entry may be a key alone. -/
def takeFlowEntries (first : Bool) : (bound : Nat) → Reader (List (Node × Node))
  | 0 => invalid
  | bound + 1 => do
    if closesMapping (← peek) then
      skip
      return []
    takeFlowMark first
    match ← peek with
    | .key =>
      skip
      let key ← takeFlowKey closesMapping bound
      let value ← takeFlowValue closesMapping bound
      return (key, value) :: (← takeFlowEntries false bound)
    | .flowMappingEnd => skip; return []
    | _ =>
      let key ← takeNode false false bound
      return (key, emptyNode) :: (← takeFlowEntries false bound)

end

/-! ### Documents -/

/-- The short forms for tags that every document has. -/
def standardHandles : List (String × String) :=
  [("!", "!"), ("!!", coreStem)]

/-- Takes the directives before a document, within a bound on their number. -/
def takeDirectives : (bound : Nat) → (versioned : Bool) → (handles : List (String × String)) →
    Reader (List (String × String))
  | 0, _, handles => return handles
  | bound + 1, versioned, handles => do
    match ← peek with
    | .directive d =>
      skip
      match d with
      | .version major =>
        if versioned || major != 1 then invalid
        else takeDirectives bound true handles
      | .shorthand handle stem =>
        if (handles.lookup handle).isSome then invalid
        else takeDirectives bound versioned (handles ++ [(handle, stem)])
      | .other => takeDirectives bound versioned handles
    | _ => return handles

/-- Whether a document has no content. -/
def isEmptyDocument : Token → Bool
  | .directive _ => true
  | .documentStart => true
  | .documentEnd => true
  | .streamEnd => true
  | _ => false

/-- Takes the end of a text with at most one document. -/
def takeEnd : (bound : Nat) → Reader Unit
  | 0 => invalid
  | bound + 1 => do
    match ← peek with
    | .documentEnd => skip; takeEnd bound
    | .streamEnd => return ()
    | _ => invalid

/-- Takes a document that begins with directives or a mark. -/
def takeMarkedDocument (bound : Nat) : Reader Node := do
  let handles ← takeDirectives bound false []
  match ← peek with
  | .documentStart =>
    skip
    modify fun f => { f with handles := handles ++ standardHandles }
    if isEmptyDocument (← peek) then return emptyNode else takeNode true false bound
  | _ => invalid

/-- Takes the only document of a text, if there is one. -/
def takeText (bound : Nat) : Reader (Option Node) := do
  match ← peek with
  | .streamEnd => return none
  | .directive _ | .documentStart =>
    let n ← takeMarkedDocument bound
    takeEnd bound
    return some n
  | _ =>
    let n ← takeNode true false bound
    takeEnd bound
    return some n

end Reader

/-- The only document of a text, if there is one. -/
def Node.ofText (cs : List Char) : Except Stop (Option Node) :=
  let (ts, stop) := tokens cs
  let feed : Feed := ⟨ts, stop, Reader.standardHandles, [], 0⟩
  (Reader.takeText (4 * ts.length + 4) |>.run feed).map Prod.fst

end NodeScript.Yaml
