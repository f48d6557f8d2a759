import NodeScript.Argument
import NodeScript.Predefined

/-!
# Programs

A generated program has constants, blocks and a run block. A block is the function of a definition
or code of the user at the top level. Code is kept with its calls apart from the text around them,
so that what a program calls can be read off it; `Program.render` gives its text.
-/

namespace NodeScript

/-- The line break of generated programs. -/
def newline : String := "\r\n"

/-- A call of a function block. -/
structure Call where
  function : String
  args : List Operand
deriving DecidableEq

/-- The line of a call. -/
def Call.render (c : Call) : String :=
  "   " ++ c.function ++ "(" ++ ",".intercalate (c.args.map Operand.render) ++ ")" ++ newline

/-! ### Code -/

/-- A piece of code: text of a definition, or a call that was put into it. -/
inductive CodePiece where
  | text (s : String)
  | call (c : Call)
deriving DecidableEq

/-- The text of a piece of code. -/
def CodePiece.render : CodePiece → String
  | .text s => s
  | .call c => c.render

/-- The text of some pieces of code. -/
def renderPieces (ps : List CodePiece) : String :=
  String.join (ps.map CodePiece.render)

/-- The parts of code around the places for calls, which are marked `%body%`. -/
def splitBody : List Char → List (List Char)
  | [] => [[]]
  | '%' :: 'b' :: 'o' :: 'd' :: 'y' :: '%' :: rest => [] :: splitBody rest
  | c :: rest =>
    match splitBody rest with
    | [] => [[c]]
    | part :: parts => (c :: part) :: parts

/-- Puts calls into each place between parts of code. -/
def fillParts (calls : List Call) : List (List Char) → List CodePiece
  | [] => []
  | [part] => [.text (String.ofList part)]
  | part :: rest => .text (String.ofList part) :: calls.map .call ++ fillParts calls rest

/-- Code with calls in each of its places. -/
def fillBody (code : String) (calls : List Call) : List CodePiece :=
  fillParts calls (splitBody code.toList)

/-- A text without the line breaks at its end. -/
def dropFinalBreaks (s : String) : String :=
  String.ofList ((s.toList.reverse.dropWhile fun c => c == '\r' || c == '\n').reverse)

/-! ### Blocks -/

/-- The part of a function in a scope of its own: it opens the scope with the parameters, loads the
predefined variables and calls the nodes of the tree of the definition. -/
structure ScopeBlock where
  names : List Value
  predefined : Option Nat
  calls : List Call
deriving DecidableEq

/-- A variable with its name, as the opening of a scope takes them. -/
def ScopeBlock.renderVariable (name : Value) : String :=
  "\"" ++ name.render ++ "\", " ++ name.render

/-- The text of a scope. -/
def ScopeBlock.render (b : ScopeBlock) : String :=
  newline ++ "init(" ++ ",".intercalate (b.names.map renderVariable) ++ ")" ++ newline ++
    (match b.predefined with
      | some index => Predefined.statement index ++ newline
      | none => "") ++
    newline ++ String.join (b.calls.map Call.render) ++ newline ++ "deinit()"

/-- The function of a definition. -/
structure FunctionBlock where
  id : String
  definition : Value
  /-- The parameters, each with its type. -/
  params : List (String × Value)
  logLevel : LogLevel
  code : List CodePiece
  scope : Option ScopeBlock
deriving DecidableEq

namespace FunctionBlock

/-- The text inside the brackets of the log level. -/
def renderCode (f : FunctionBlock) : String :=
  dropFinalBreaks (renderPieces f.code) ++
    (match f.scope with
      | some b => b.render
      | none => "")

/-- The code between statements that set and restore the log level, if the definition has one. -/
def renderLeveled (f : FunctionBlock) : String :=
  if f.logLevel == .inherit then f.renderCode
  else
    s!"int prevLog = SetLogLevel({f.logLevel.code})" ++ newline ++ f.renderCode ++ newline ++
      "SetLogLevel(prevLog)"

/-- The text of a function. -/
def render (f : FunctionBlock) : String :=
  let params := f.params.map fun p => p.1 ++ " " ++ p.2.render
  let traced := String.join (f.params.map fun p => "," ++ p.2.render)
  "func " ++ f.id ++ "(" ++ ",".intercalate params ++ ") \x7b" ++ newline ++
    "initcmd(\x60" ++ f.definition.render ++ "\x60" ++ traced ++ ")" ++ newline ++
    f.renderLeveled ++ newline ++ "\x7d" ++ newline

end FunctionBlock

/-- A block of a program. -/
inductive Block where
  | function (f : FunctionBlock)
  /-- Code of the user at the top level. -/
  | source (code : List CodePiece)
deriving DecidableEq

/-- The text of a block. -/
def Block.render : Block → String
  | .function f => f.render
  | .source code => renderPieces code ++ newline

/-- The text of some blocks. -/
def renderBlocks (bs : List Block) : String :=
  String.join (bs.map Block.render)

/-! ### Programs -/

/-- The block that a program starts with. -/
structure RunBlock where
  params : List Argument
  logLevel : LogLevel
  predefined : Option Nat
  code : String
  calls : List Call
deriving DecidableEq

namespace RunBlock

/-- The declaration of a parameter. -/
def renderParam (a : Argument) : String :=
  a.type ++ " " ++ a.name.render ++ " = " ++ a.operand.render ++ newline

/-- The text of a run block. -/
def render (r : RunBlock) : String :=
  "run \x7b" ++ newline ++ String.join (r.params.map renderParam) ++
    s!"SetLogLevel({r.logLevel.code})" ++ newline ++ "init()" ++ newline ++
    (match r.predefined with
      | some index => Predefined.statement index ++ newline
      | none => "") ++
    (if r.code.isEmpty then "" else r.code ++ newline) ++
    String.join (r.calls.map Call.render) ++ newline ++ "deinit()\x7d"

end RunBlock

/-- A generated program. -/
structure Program where
  constants : List String
  blocks : List Block
  run : RunBlock
deriving DecidableEq

namespace Program

/-- The block that numbers the log levels. -/
def levelsBlock : String :=
  "const IOTA \x7b LOG_DISABLE LOG_ERROR LOG_WARN LOG_INFO LOG_DEBUG \x7d" ++ newline

/-- The text of a program. -/
def render (p : Program) : String :=
  StringTable.renderBlock newline p.constants ++ levelsBlock ++ renderBlocks p.blocks ++ newline ++
    p.run.render

end Program

end NodeScript
