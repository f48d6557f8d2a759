import NodeScript.Session.LogChannel
import NodeScript.Session.Scopes
import NodeScript.Value.Normal
import NodeScript.Yaml.Data

/-!
# Sessions

A session is one run of a generated program: its scopes, its log, and the calls by which the program
acts on them. A call is work on the session that may fail at any step; its outcome comes with the
session as it is then.
-/

namespace NodeScript

/-- One run of a generated program. -/
structure Session where
  scopes : Scopes
  log : LogChannel
  /-- The time, which stands still. -/
  now : Moment
  sink : Sink

/-- The calls that a generated program makes. -/
inductive Command where
  | init (pairs : List Value)
  | deinit
  | initcmd (name : Value) (args : List Value)
  | logOutput (level message : Value)
  | macroCall (text : Value)
  | setLogLevel (level : Value)
  | setVariable (name value : Value)
  | setYamlVars (text : Value)

namespace Command

/-- The names of calls with their signatures. -/
def signatures : List (String × String) :=
  [("init", "init(...)"), ("deinit", "deinit()"), ("initcmd", "initcmd(str, ...) bool"),
   ("LogOutput", "LogOutput(int,str)"), ("macro", "macro(str) str"),
   ("SetLogLevel", "SetLogLevel(int) int"), ("SetVariable", "SetVariable(str,str)"),
   ("SetYamlVars", "SetYamlVars(str)")]

/-- The call with a name and arguments. -/
def ofArgs (name : String) (args : List Value) : Except Fault Command :=
  match name, args with
  | "init", pairs => .ok (.init pairs)
  | "deinit", [] => .ok .deinit
  | "initcmd", name :: args => .ok (.initcmd name args)
  | "LogOutput", [level, message] => .ok (.logOutput level message)
  | "macro", [text] => .ok (.macroCall text)
  | "SetLogLevel", [level] => .ok (.setLogLevel level)
  | "SetVariable", [name, value] => .ok (.setVariable name value)
  | "SetYamlVars", [text] => .ok (.setYamlVars text)
  | _, _ => .error .wrongKind

end Command

/-- Work on a session that may fail; what was done before a failure stays. -/
abbrev Acting := ExceptT Failure (StateM Session)

/-- What a call comes to. -/
structure Outcome where
  result : Except Failure Value
  session : Session
  journal : Journal

/-- The outcome of work that gives a result and what is reported. -/
def Outcome.ofRun : Except Failure (Value × Journal) × Session → Outcome
  | (.ok (result, journal), session) => ⟨.ok result, session, journal⟩
  | (.error failure, session) => ⟨.error failure, session, []⟩

namespace Session

/-- A session with a log level, a pattern of time stamps and a sink. -/
def create (env : Environment) (level pattern : Value) (now : Moment) (sink : Sink) :
    Except Fault Session := do
  let log ← LogChannel.create env level pattern
  return ⟨.empty, log, now, sink⟩

/-- Does work on the scopes. -/
def scoping {α : Type} (work : Scoping α) : Acting α := fun s =>
  let (result, scopes) := work.run s.scopes
  (result, { s with scopes })

/-- Does work on the log. -/
def logging {α : Type} (work : Logging α) : Acting α := fun s =>
  let (result, log) := work.run s.log
  (result.mapError .fault, { s with log })

/-- The variables that pairs of names and values give; a repeated name takes the last value. -/
def pairVariables : List Value → Table Value Value → Except Fault (Table Value Value)
  | name :: value :: rest, t => do
    let name ← name.shown
    let value ← value.variableText
    pairVariables rest (t.put (.text name) (.text value))
  | _, t => .ok t

/-- Opens a scope with variables for the parameters of a function. -/
def init (pairs : List Value) : Acting Unit := do
  if pairs.length % 2 == 1 then throw (.unpaired pairs.length)
  let vars ← pairVariables pairs []
  scoping (Scopes.enter (.table vars))

/-- Writes a variable into the innermost scope. -/
def setVariable (name value : Value) : Acting Unit := do
  let text ← value.variableText
  scoping (Scopes.setVariable name (.text text))

/-- The texts of variables. -/
def variableTexts (t : Table Value Value) : Except Fault (Table Value Value) :=
  t.foldlM (fun vars e => do
    let name ← e.1.shown
    let value ← e.2.variableText
    return vars.put (.text name) (.text value)) []

/-- The variables that a text of predefined variables holds; a text without data holds none. -/
def readVariables (text : Value) : Except Failure (Table Value Value) :=
  match text with
  | .text s =>
    match Yaml.read s with
    | .error .invalid => .error .variablesUnreadable
    | .error (.fault f) => .error (.fault f)
    | .ok v =>
      match v.orElse (.table []) with
      | .table t => (variableTexts t).mapError .fault
      | _ => .error .variablesNotMapping
  | _ => .error (.fault .noOperation)

/-- Loads predefined variables into the innermost scope. -/
def setYamlVars (text : Value) : Acting Unit := do
  let vars ← readVariables text
  scoping (Scopes.setVariables (.table vars))

/-- Expands the references of a text. -/
def expand (text : Value) : Acting Value := do
  (← get).scopes.expand text

/-- Queues a message if its level passes, and tells whether it does. -/
def logOutput (level message : Value) : Acting Bool := do
  logging (LogChannel.emit (← get).now level message)

/-- Queues the record of a call if the level of debugging passes, and tells whether it does. -/
def initcmd (name : Value) (args : List Value) : Acting Bool := do
  logging (LogChannel.trace (← get).now name (.tuple args))

/-- Sets the log level and gives the one before it, with what is reported. -/
def setLogLevel (level : Value) : Acting (LogLevel × Journal) :=
  logging (LogChannel.setLevel level)

/-- What a call does; gives its result and what is reported. -/
def act : Command → Acting (Value × Journal)
  | .init pairs => do
    init pairs
    return (.null, [])
  | .deinit => do
    scoping Scopes.leave
    return (.null, [])
  | .initcmd name args => do
    let _ ← initcmd name args
    return (.bool true, [])
  | .logOutput level message => do
    let _ ← logOutput level message
    return (.null, [])
  | .macroCall text => do
    return (← expand text, [])
  | .setLogLevel level => do
    let (previous, reports) ← setLogLevel level
    return (.int previous.code, reports)
  | .setVariable name value => do
    setVariable name value
    return (.null, [])
  | .setYamlVars text => do
    setYamlVars text
    return (.null, [])

/-- Makes a call. -/
def call (s : Session) (c : Command) : Outcome :=
  .ofRun ((act c).run s)

/-- Starts to forward the lines of the log. -/
def start (s : Session) : Session :=
  { s with log := s.log.start s.sink }

/-- Takes all lines out of the queue of the log. -/
def drain (s : Session) : List String × Session :=
  let (lines, log) := s.log.drain
  (lines, { s with log })

/-- Stops to forward lines, and reports scopes that are still open. -/
def close (s : Session) : Session × List Delivery × Journal :=
  let (log, deliveries) := s.log.stop
  let depth := s.scopes.depth
  let warning : Journal :=
    if depth == 0 then [] else [⟨.warning, s!"Script finished with {depth} open scope(s)"⟩]
  ({ s with log }, deliveries, deliveries.filterMap Delivery.report? ++ warning)

end Session

end NodeScript
