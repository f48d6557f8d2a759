import NodeScript.Proofs.Linking
import NodeScript.Session.Basic

/-!
# Executions of programs

The text of a function block or of the run block is a sequence of statements. A program is run by
taking the statements of its run block in order; a call takes those of the function block that it
names, and a name without a function block is a call of the session. Text of definitions and of the
user makes no calls besides those that were put into it, and `eval` says what it denotes where it
stands for a value.

The record of a run lists the functions that have returned, with the session before and after each.
-/

namespace NodeScript

/-! ### Statements -/

/-- A statement of a generated program. -/
inductive Statement where
  | declare (a : Argument)
  | trace (definition : Value) (names : List Value)
  | saveLevel (level : LogLevel)
  | restoreLevel
  | setLevel (level : LogLevel)
  | openScope (names : List Value)
  | load (index : Nat)
  | closeScope
  /-- Text without calls. -/
  | text (s : String)
  /-- Code with calls in its places. -/
  | code (ps : List CodePiece)
  /-- Calls in lines of their own. -/
  | calls (cs : List Call)

namespace Statement

/-- The text of a statement. -/
def render : Statement → String
  | .declare a => a.type ++ " " ++ a.name.render ++ " = " ++ a.operand.render
  | .trace definition names =>
    "initcmd(\x60" ++ definition.render ++ "\x60" ++
      String.join (names.map fun x => "," ++ x.render) ++ ")"
  | .saveLevel level => s!"int prevLog = SetLogLevel({level.code})"
  | .restoreLevel => "SetLogLevel(prevLog)"
  | .setLevel level => s!"SetLogLevel({level.code})"
  | .openScope names => "init(" ++ ",".intercalate (names.map ScopeBlock.renderVariable) ++ ")"
  | .load index => Predefined.statement index
  | .closeScope => "deinit()"
  | .text s => s
  | .code ps => dropFinalBreaks (renderPieces ps)
  | .calls cs => String.join (cs.map Call.render)

/-- The text of statements, one after the other. -/
def renderAll (ss : List Statement) : String :=
  newline.intercalate (ss.map render)

lemma renderAll_singleton (s : Statement) : renderAll [s] = s.render :=
  String.intercalate_singleton

lemma renderAll_cons (s t : Statement) (ss : List Statement) :
    renderAll (s :: t :: ss) = s.render ++ newline ++ renderAll (t :: ss) :=
  String.intercalate_cons_cons

end Statement

/-- The statements of a scope. -/
def ScopeBlock.statements (b : ScopeBlock) : List Statement :=
  Statement.openScope b.names :: (b.predefined.map Statement.load).toList ++
    [Statement.text "", Statement.calls b.calls, Statement.closeScope]

namespace FunctionBlock

/-- The statements between those that set and restore the log level. -/
def body (f : FunctionBlock) : List Statement :=
  .code f.code :: (f.scope.map ScopeBlock.statements).getD []

/-- The statements after the record of the call. -/
def leveled (f : FunctionBlock) : List Statement :=
  if f.logLevel == .inherit then f.body else .saveLevel f.logLevel :: f.body ++ [.restoreLevel]

/-- The statements of a function. -/
def statements (f : FunctionBlock) : List Statement :=
  .trace f.definition (f.params.map (·.2)) :: f.leveled

end FunctionBlock

/-- The statements of a run block. -/
def RunBlock.statements (r : RunBlock) : List Statement :=
  r.params.map Statement.declare ++
    Statement.setLevel r.logLevel :: Statement.openScope [] ::
      (r.predefined.map Statement.load).toList ++
    (if r.code.isEmpty then [] else [Statement.text r.code]) ++
    [Statement.calls r.calls, Statement.closeScope]

/-! ### The text of a program is that of its statements -/

namespace Statement

/-- The text of statements with a line break after each. -/
def renderLines (ss : List Statement) : String :=
  String.join (ss.map fun s => s.render ++ newline)

lemma renderLines_cons (s : Statement) (ss : List Statement) :
    renderLines (s :: ss) = s.render ++ newline ++ renderLines ss :=
  String.join_cons

lemma renderLines_append (ss ts : List Statement) :
    renderLines (ss ++ ts) = renderLines ss ++ renderLines ts := by
  rw [renderLines, List.map_append, String.join_append]
  rfl

lemma renderAll_newline (s : Statement) (ss : List Statement) :
    renderAll (s :: ss) ++ newline = renderLines (s :: ss) := by
  induction ss generalizing s with
  | nil => rw [renderAll_singleton, renderLines_cons]; exact String.append_empty.symm
  | cons t ss ih => rw [renderAll_cons, renderLines_cons, ← ih, String.append_assoc]

/-- Statements that are followed by others end in a line break. -/
lemma renderAll_append (ss : List Statement) (t : Statement) (ts : List Statement) :
    renderAll (ss ++ t :: ts) = renderLines ss ++ renderAll (t :: ts) := by
  induction ss with
  | nil => exact String.empty_append.symm
  | cons s ss ih =>
    have hcons : renderAll (s :: (ss ++ t :: ts)) =
        s.render ++ newline ++ renderAll (ss ++ t :: ts) :=
      String.intercalate_cons_of_ne_nil (by simp)
    rw [List.cons_append, hcons, ih, renderLines_cons]
    simp only [String.append_assoc]

end Statement

/-- The line that loads predefined variables, if there are any. -/
lemma renderLines_load (predefined : Option Nat) :
    Statement.renderLines (predefined.map Statement.load).toList =
      match predefined with
      | some index => Predefined.statement index ++ newline
      | none => "" := by
  cases predefined with
  | none => rfl
  | some index => exact (Statement.renderLines_cons _ _).trans String.append_empty

open Statement in
lemma ScopeBlock.render_eq (b : ScopeBlock) :
    b.render = newline ++ renderAll b.statements := by
  rewrite [ScopeBlock.render, ScopeBlock.statements, renderAll_append, renderLines_cons,
    renderLines_load, renderAll_cons, renderAll_cons, renderAll_singleton]
  generalize newline = br
  dsimp only [Statement.render]
  cases b.predefined with
  | none => simp only [String.append_assoc, String.empty_append]
  | some index => simp only [String.append_assoc, String.empty_append]

open Statement in
lemma FunctionBlock.renderCode_eq (f : FunctionBlock) : f.renderCode = renderAll f.body := by
  rw [FunctionBlock.renderCode, FunctionBlock.body]
  cases f.scope with
  | none => exact String.append_empty
  | some b =>
    have hcons : renderAll (.code f.code :: b.statements) =
        dropFinalBreaks (renderPieces f.code) ++ newline ++ renderAll b.statements :=
      String.intercalate_cons_of_ne_nil (by simp [ScopeBlock.statements])
    rewrite [Option.map_some, Option.getD_some, hcons, String.append_assoc, ← ScopeBlock.render_eq]
    rfl

open Statement in
lemma FunctionBlock.renderLeveled_eq (f : FunctionBlock) :
    f.renderLeveled = renderAll f.leveled := by
  rw [FunctionBlock.renderLeveled, FunctionBlock.leveled, FunctionBlock.renderCode_eq]
  by_cases hl : (f.logLevel == .inherit) = true
  · rw [if_pos hl, if_pos hl]
  · rewrite [if_neg hl, if_neg hl, renderAll_append, renderLines_cons, renderAll_singleton,
      FunctionBlock.body, ← renderAll_newline]
    generalize newline = br
    dsimp only [Statement.render]
    simp only [String.append_assoc]

/-- The text of a function, from its statements. -/
def FunctionBlock.source (f : FunctionBlock) : String :=
  "func " ++ f.id ++ "(" ++ ",".intercalate (f.params.map fun p => p.1 ++ " " ++ p.2.render) ++
    ") \x7b" ++ newline ++ Statement.renderAll f.statements ++ newline ++ "\x7d" ++ newline

lemma FunctionBlock.render_eq_source (f : FunctionBlock) : f.render = f.source := by
  have hcons : Statement.renderAll f.statements =
      (Statement.trace f.definition (f.params.map (·.2))).render ++ newline ++
        Statement.renderAll f.leveled :=
    String.intercalate_cons_of_ne_nil (by rw [leveled]; split_ifs <;> simp [body])
  unfold FunctionBlock.render FunctionBlock.source
  rewrite [hcons, ← renderLeveled_eq]
  generalize newline = br
  dsimp only [Statement.render]
  rewrite [List.map_map]
  simp only [String.append_assoc]
  rfl

/-- The text of a run block, from its statements. -/
def RunBlock.source (r : RunBlock) : String :=
  "run \x7b" ++ newline ++ Statement.renderAll r.statements ++ "\x7d"

lemma RunBlock.render_eq_source (r : RunBlock) : r.render = r.source := by
  have hdeclare : Statement.renderLines (r.params.map .declare) =
      String.join (r.params.map renderParam) := by
    rewrite [Statement.renderLines, List.map_map]
    rfl
  have hcode : Statement.renderLines (if r.code.isEmpty then [] else [.text r.code]) =
      if r.code.isEmpty then "" else r.code ++ newline := by
    split_ifs
    · rfl
    · exact (Statement.renderLines_cons _ _).trans String.append_empty
  have hinit : (Statement.openScope []).render = "init()" := rfl
  unfold RunBlock.render RunBlock.source
  rewrite [statements, Statement.renderAll_append, Statement.renderLines_append,
    Statement.renderLines_append, Statement.renderLines_cons, Statement.renderLines_cons, hdeclare,
    hcode, renderLines_load, Statement.renderAll_cons, Statement.renderAll_singleton, hinit]
  generalize newline = br
  dsimp only [Statement.render]
  simp only [String.append_assoc]
  rfl

/-! ### Runs -/

/-- The values of the variables of a function. -/
abbrev Frame := List (String × Value)

/-- The value of a variable. -/
def Frame.value (frame : Frame) (name : String) : Value :=
  (frame.lookup name).getD .null

/-- A function that has returned, with the sessions at its beginning and at its end. -/
structure Return where
  function : String
  before : Session
  after : Session

/-- A program that runs. -/
structure Machine where
  session : Session
  returns : List Return

/-- What ends a run before its last statement. -/
inductive Halt where
  | failure (f : Failure)
  /-- Calls are nested too deeply. -/
  | tooDeep

/-- Work of a running program. -/
abbrev Running := ExceptT Halt (StateM Machine)

/-- The names of the calls of a session. -/
def Command.names : List String :=
  Command.signatures.map Prod.fst

/-- Makes a call of the session. -/
def Machine.act (c : Command) : Running Value := do
  let m ← get
  let outcome := m.session.call c
  set { m with session := outcome.session }
  match outcome.result with
  | .ok v => return v
  | .error f => throw (.failure f)

namespace Program

/-- The text of a constant. -/
def constant (p : Program) (index : Nat) : Value :=
  .text (p.constants[index]?.getD "")

/-- The function with an identifier. -/
def function? (p : Program) (id : String) : Option FunctionBlock :=
  p.functions.find? fun f => f.id == id

section

variable (p : Program) (eval : Frame → String → Value)
  (enter : FunctionBlock → List Value → Running Value)

/-- Calls what has a name: a function of the program, or else the session. -/
def invoke (name : String) (args : List Value) : Running Value :=
  match p.function? name with
  | some f => enter f args
  | none =>
    match Command.ofArgs name args with
    | .ok c => Machine.act c
    | .error f => throw (.failure (.fault f))

/-- The value of an operand. -/
def operandValue (frame : Frame) : Operand → Running Value
  | .code s => return eval frame s
  | .literal s => return .text s
  | .constant index => return p.constant index
  | .expansion index => p.invoke enter "macro" [p.constant index]

/-- Makes calls one after the other. -/
def runCalls (frame : Frame) : List Call → Running Unit
  | [] => return ()
  | c :: rest => do
    let args ← c.args.mapM (p.operandValue eval enter frame)
    let _ ← p.invoke enter c.function args
    runCalls frame rest

/-- Takes a statement; gives the variables after it. -/
def step (frame : Frame) : Statement → Running Frame
  | .declare a => do
    let v ← p.operandValue eval enter frame a.operand
    return (a.name.render, v) :: frame
  | .trace definition names => do
    let args := names.map fun x => frame.value x.render
    let _ ← p.invoke enter "initcmd" (.text definition.render :: args)
    return frame
  | .saveLevel level => do
    let previous ← p.invoke enter "SetLogLevel" [.int level.code]
    return ("prevLog", previous) :: frame
  | .restoreLevel => do
    let _ ← p.invoke enter "SetLogLevel" [frame.value "prevLog"]
    return frame
  | .setLevel level => do
    let _ ← p.invoke enter "SetLogLevel" [.int level.code]
    return frame
  | .openScope names => do
    let pairs := names.flatMap fun x => [.text x.render, frame.value x.render]
    let _ ← p.invoke enter "init" pairs
    return frame
  | .load index => do
    let _ ← p.invoke enter "SetYamlVars" [p.constant index]
    return frame
  | .closeScope => do
    let _ ← p.invoke enter "deinit" []
    return frame
  | .text _ => return frame
  | .code ps => do
    p.runCalls eval enter frame (codeCalls ps)
    return frame
  | .calls cs => do
    p.runCalls eval enter frame cs
    return frame

/-- Takes statements one after the other. -/
def steps (frame : Frame) (ss : List Statement) : Running Frame :=
  ss.foldlM (p.step eval enter) frame

end

/-- Calls a function, inside which calls are nested at most `depth` deep. -/
def enterFunction (p : Program) (eval : Frame → String → Value) :
    (depth : Nat) → FunctionBlock → List Value → Running Value
  | 0, _, _ => throw .tooDeep
  | depth + 1, f, args => do
    let before := (← get).session
    let _ ← p.steps eval (p.enterFunction eval depth)
      ((f.params.map (·.2.render)).zip args) f.statements
    modify fun m => { m with returns := m.returns ++ [⟨f.id, before, m.session⟩] }
    return .null

/-- Runs a program in a session. -/
def execute (p : Program) (eval : Frame → String → Value) (depth : Nat) (s : Session) :
    Except Halt Frame × Machine :=
  (p.steps eval (p.enterFunction eval depth) [] p.run.statements).run ⟨s, []⟩

end Program

end NodeScript
