import NodeScript.Identifier
import NodeScript.Program.Basic

/-!
# Compilation

A tree of nodes becomes calls, and each definition becomes a function block the first time that a
node uses it: the calls of the children of that node go into its code, and its own tree is compiled
inside it. Later uses are calls only. Code of the user is put into a numbered function at each use,
or to the top level of the program.

A definition is linked before its function is built, so a use of itself inside it becomes a call.
Trees of definitions are compiled inside each other at most as deep as there are definitions, and
this bounds the work: `compileTree` takes the number of definitions that may still be entered.

A use inside another one takes room on the stack, and so do the levels of a list. `program` has all
the room it needs; `programWithin` gives up when its room is used up.
-/

namespace NodeScript

/-- A program under construction. -/
structure Draft where
  constants : Constants
  /-- The function of each definition that has one. -/
  linked : Table Value String
  /-- The identifiers in use. -/
  ids : List String
  /-- The number of the next function for code of the user. -/
  counter : Nat
  blocks : List Block

/-- Work on a draft that may fail; what was done before a failure stays. -/
abbrev Drafting := ExceptT Failure (StateM Draft)

namespace Draft

/-- The draft of a program with nothing in it. -/
def empty : Draft := ⟨.empty, [], [], 0, []⟩

/-- Does work on a draft; gives its outcome, the draft after it and what was reported. -/
def perform {α : Type} (d : Draft) (work : Drafting α) : Except Failure α × Draft × Journal :=
  let (result, d) := work.run { d with constants.journal := [] }
  (result, d, d.constants.journal)

/-- Does work that may add constants. -/
def interning {α : Type} (work : Interning α) : Drafting α := fun d =>
  let (result, constants) := work.run d.constants
  (result, { d with constants })

/-- Adds a report. -/
def report (r : Report) : Drafting Unit :=
  modify fun d => { d with constants.journal := d.constants.journal ++ [r] }

/-- Adds a block. -/
def addBlock (b : Block) : Drafting Unit :=
  modify fun d => { d with blocks := d.blocks ++ [b] }

/-- The first of some numbered identifiers that is not in use. The search tries one more number than
there are identifiers in use. -/
def firstFree (ids : List String) (name : Nat → String) (start : Nat) : Nat :=
  ((List.range (ids.length + 1)).find? fun k => !ids.contains (name (start + k))).getD 0 + start

/-- An identifier that is not in use: the wanted one, alone or with a number from two on. -/
def freshId (ids : List String) (base : String) : String :=
  if ids.contains base then
    let name (n : Nat) : String := base ++ toString n
    name (firstFree ids name 2)
  else base

/-- Reserves an identifier for a definition and links it. -/
def link (d : Definition) : Drafting String := do
  let base ← Identifier.ofValue d.name
  let s ← get
  let id := freshId s.ids base
  set { s with ids := s.ids ++ [id], linked := s.linked.put d.name id }
  return id

/-- Reserves the next numbered identifier for code of the user. -/
def nextSourceId (d : Definition) : Drafting String := do
  let base ← Identifier.ofValue d.name
  let s ← get
  let name (n : Nat) : String := base ++ toString n
  let n := firstFree s.ids name s.counter
  set { s with ids := s.ids ++ [name n], counter := n + 1 }
  return name n

/-- Adds a function. -/
def addFunction (f : FunctionBlock) : Drafting Unit := do
  addBlock (.function f)
  report ⟨.debug, s!"Emitted function {f.id} for '{f.definition.render}'"⟩

end Draft

/-- The code of a definition, which must be a text. -/
def Definition.codeText (d : Definition) : Except Fault String :=
  match d.code with
  | .text s => .ok s
  | _ => .error .noOperation

namespace Compile

/-- Adds the function of a definition; `calls` are those of the node that links it. -/
def emitFunction (h : Header) (tree : List Node → Drafting (List Call)) (d : Definition)
    (id : String) (args : List Argument) (calls : List Call) : Drafting Unit := do
  let code ← d.codeText
  let scope ←
    if d.tree.isEmpty then pure none
    else do
      let predefined ← Draft.interning (Predefined.build d h.lang)
      let inner ← tree d.tree
      pure (some ⟨args.map (·.name), predefined, inner⟩)
  Draft.addFunction {
    id
    definition := d.name
    params := args.map fun a => (a.type, a.name)
    logLevel := d.logLevel
    code := fillBody code calls
    scope }

/-- Adds the function of one use of code of the user and gives its call. -/
def emitSource (d : Definition) (code : String) (calls : List Call) : Drafting (List Call) := do
  let id ← Draft.nextSourceId d
  Draft.addFunction {
    id
    definition := d.name
    params := []
    logLevel := d.logLevel
    code := fillBody code calls
    scope := none }
  return [⟨id, []⟩]

/-- The definition that a node uses. -/
def resolve (h : Header) (defs : Table Value Definition) (name : Value) :
    Except Failure Definition := do
  name.checkKey
  match defs.get? name with
  | some d => return d
  | none =>
    let message ← h.message Header.openKey [("name", name)]
    throw (.notFound message name)

/-- Compiles a use of a definition with its arguments to a call, or to nothing if it goes to the top
level. `below` compiles the nodes below it and `tree` the tree of a definition. -/
def useWith (h : Header) (below : Drafting (List Call)) (tree : List Node → Drafting (List Call))
    (d : Definition) (args : List Argument) : Drafting (List Call) := do
  if d.isSourceCode then
    match args with
    | flag :: source :: _ =>
      let calls ← below
      if flag.operand.render == "true" then
        Draft.addBlock (.source (fillBody source.operand.render calls))
        return []
      else emitSource d source.operand.render calls
    | _ => throw (.sourceIncomplete d.name)
  else
    let operands := args.map (·.operand)
    match (← get).linked.get? d.name with
    | some id => return [⟨id, operands⟩]
    | none =>
      let id ← Draft.link d
      let calls ← below
      emitFunction h tree d id args calls
      return [⟨id, operands⟩]

/-- Compiles a node, or nothing if it is switched off. `below` compiles the nodes below it and
`tree` the tree of a definition; there is `room` for lists in lists. -/
def nodeWith (h : Header) (defs : Table Value Definition) (below : Drafting (List Call))
    (tree : List Node → Drafting (List Call)) (n : Node) (room : Option Nat := none) :
    Drafting (List Call) :=
  match n with
  | .mk name disabled values _ => do
    if disabled then return []
    let d ← resolve h defs name
    let args ← Draft.interning (Argument.listOfValues h d (.table values) true room)
    useWith h below tree d args

mutual

/-- Compiles a node. `tree` compiles the tree of a definition. -/
def node (h : Header) (defs : Table Value Definition) (tree : List Node → Drafting (List Call)) :
    Node → Drafting (List Call)
  | .mk name disabled values children =>
    nodeWith h defs (nodes h defs tree children) tree (.mk name disabled values children)

/-- Compiles nodes to their calls, in order. -/
def nodes (h : Header) (defs : Table Value Definition) (tree : List Node → Drafting (List Call)) :
    List Node → Drafting (List Call)
  | [] => return []
  | n :: rest => do
    let calls ← node h defs tree n
    let more ← nodes h defs tree rest
    return calls ++ more

end

/-- Compiles nodes inside which trees of definitions are entered at most `depth` deep. -/
def compileTree (h : Header) (defs : Table Value Definition) :
    (depth : Nat) → List Node → Drafting (List Call)
  | 0 => fun _ => return []
  | depth + 1 => nodes h defs (compileTree h defs depth)

/-- Compiles nodes to their calls. -/
def compileNodes (h : Header) (defs : Table Value Definition) (ns : List Node) :
    Drafting (List Call) :=
  compileTree h defs (defs.length + 1) ns

/-- The code of a root definition, with nothing in its places and no blanks around it. -/
def rootCode (code : String) : String :=
  Text.trim (String.ofList (splitBody code.toList).flatten)

/-- Compiles a root definition with values for its parameters into a program. `tree` compiles its
tree; there is `room` for lists in lists. -/
def programWith (h : Header) (tree : List Node → Drafting (List Call)) (root : Definition)
    (values : Value) (room : Option Nat := none) : Drafting Program := do
  let params ← Draft.interning (Argument.listOfValues h root values false room)
  let code ← root.codeText
  let predefined ← Draft.interning (Predefined.build root h.lang)
  let calls ← tree root.tree
  let d ← get
  let constants := d.constants.table.strings
  let counts := s!"{d.blocks.length} function block(s), {constants.length} constant(s)"
  Draft.report ⟨.info, s!"Compiled '{root.name.render}': {counts}"⟩
  return {
    constants
    blocks := d.blocks
    run := {
      params
      logLevel := if root.logLevel == .inherit then h.logLevel else root.logLevel
      predefined
      code := rootCode code
      calls } }

/-- Compiles a root definition with values for its parameters into a program. -/
def program (h : Header) (defs : Table Value Definition) (root : Definition) (values : Value) :
    Drafting Program :=
  programWith h (compileNodes h defs) root values

/-! ### A bounded stack -/

/-- How many levels of a list take as much of the stack as one use of a definition. -/
def levelsPerUse : Nat := 5

/-- The room for lists in lists where `stack` more uses fit on the stack. -/
def listRoom (stack : Nat) : Nat :=
  levelsPerUse * (stack + 1)

/-- Does work for each of some nodes, in order, and joins the calls. -/
def eachNode (work : Node → Drafting (List Call)) : List Node → Drafting (List Call)
  | [] => return []
  | n :: rest => do
    let calls ← work n
    let more ← eachNode work rest
    return calls ++ more

/-- Compiles nodes to their calls on a stack that has room for uses nested `stack` deep. -/
def nodesWithin (h : Header) (defs : Table Value Definition) :
    (stack : Nat) → List Node → Drafting (List Call)
  | 0 => fun _ => throw (.fault .tooNested)
  | stack + 1 =>
    eachNode fun n =>
      nodeWith h defs (nodesWithin h defs stack n.children) (nodesWithin h defs stack) n
        (some (listRoom stack))

/-- Compiles a root definition with values for its parameters into a program, on a stack that has
room for uses nested `stack` deep. -/
def programWithin (h : Header) (defs : Table Value Definition) (stack : Nat) (root : Definition)
    (values : Value) : Drafting Program :=
  programWith h (nodesWithin h defs stack) root values (some (listRoom stack))

end Compile

end NodeScript
