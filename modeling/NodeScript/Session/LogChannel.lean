import NodeScript.Journal
import NodeScript.Script.LogLevel
import NodeScript.Session.Stamp
import NodeScript.Settings
import NodeScript.Value.Normal

/-!
# Log channels

The log of a running script. A message that passes the level of the channel becomes a line in a
queue; lines are taken out by hand, or given to a sink while a consumer runs.

A consumer is stopped by waiting for it, but not for ever: it may be left running, and another one
may be started beside it. A sink may fail on a line, which its consumer reports, or in such a way
that the consumer ends.
-/

namespace NodeScript

/-! ### Sinks -/

/-- What a sink does with a line. -/
inductive Receipt where
  /-- It keeps the line. -/
  | kept
  /-- It fails with a message. -/
  | failed (message : String)
  /-- It fails in a way that its consumer does not handle. -/
  | fatal

/-- Where a consumer gives lines to. -/
inductive Sink where
  /-- A sink that is told how many lines it was given before. -/
  | receiver (given : Nat) (answer : Nat → String → Receipt)
  /-- Reports the lines in the journal. -/
  | journal

/-- What became of a line that was given to a sink. -/
inductive Delivery where
  /-- The sink kept the line. -/
  | received (line : String)
  /-- The line was reported in the journal. -/
  | logged (line : String)
  /-- The sink failed on the line, and its message was reported. -/
  | failed (line message : String)
  /-- The sink failed on the line, and its consumer ended. -/
  | lost (line : String)
deriving DecidableEq

namespace Sink

/-- The labels of lines with their severities. -/
def labels : List (String × Severity) :=
  [("[ERROR]", .error), ("[WARN]", .warning), ("[INFO]", .info), ("[DEBUG]", .debug)]

/-- The report of a line, with the severity that its label tells. -/
def lineReport (line : String) : Report :=
  match labels.find? fun l => l.1.toList.isPrefixOf line.toList with
  | some (_, severity) => ⟨severity, line⟩
  | none => ⟨.info, line⟩

/-- The report that a sink failed. -/
def failureReport (message : String) : Report :=
  ⟨.error, "Script log sink failed: " ++ message⟩

/-- Gives a line to a sink. -/
def accept (sink : Sink) (line : String) : Delivery :=
  match sink with
  | .journal => .logged line
  | .receiver given answer =>
    match answer given line with
    | .kept => .received line
    | .failed message => .failed line message
    | .fatal => .lost line

/-- A sink after it was given a line. -/
def next : Sink → Sink
  | .journal => .journal
  | .receiver given answer => .receiver (given + 1) answer

/-- Whether a text occurs in another. -/
def occursIn (part : List Char) : List Char → Bool
  | [] => part.isEmpty
  | c :: rest => part.isPrefixOf (c :: rest) || occursIn part rest

/-- A sink that keeps the lines, and fails on those that hold a text. -/
def collector (failsOn : Option String) : Sink :=
  .receiver 0 fun _ line =>
    match failsOn with
    | some text => if occursIn text.toList line.toList then .failed "sink down" else .kept
    | none => .kept

end Sink

namespace Delivery

/-- The line that was given. -/
def line : Delivery → String
  | .received line | .logged line | .failed line _ | .lost line => line

/-- The line that the sink kept. -/
def kept? : Delivery → Option String
  | .received line => some line
  | _ => none

/-- What was reported. -/
def report? : Delivery → Option Report
  | .logged line => some (Sink.lineReport line)
  | .failed _ message => some (Sink.failureReport message)
  | .received _ | .lost _ => none

/-- Whether the consumer ended. -/
def isFatal : Delivery → Bool
  | .lost _ => true
  | _ => false

end Delivery

/-! ### Channels -/

/-- The log of a running script. -/
structure LogChannel where
  level : LogLevel
  /-- The pattern of time stamps. -/
  pattern : Value
  /-- Lines that wait, oldest first. -/
  queue : List String
  /-- The sinks of the consumers that run, the last one that was started first. -/
  consumers : List Sink
  /-- Whether the first of them can be stopped. The others were left running. -/
  held : Bool

/-- Work on a log channel that may fail; what was done before a failure stays. -/
abbrev Logging := ExceptT Fault (StateM LogChannel)

/-- The argument of a traced call. -/
def Value.traceText : Value → Except Fault String
  | .text s => .ok ("\"" ++ s ++ "\"")
  | .bool b => .ok (if b then "true" else "false")
  | v => v.shown

namespace LogChannel

/-- A channel with a level and a pattern; what is not given is taken from the settings. -/
def create (env : Environment) (level pattern : Value) : Except Fault LogChannel := do
  let level ← match level with
    | .null => Settings.logLevel env
    | v => LogLevel.ofValue v
  let pattern := pattern.orElse (.text (Settings.logTimeFormat env))
  return ⟨level, pattern, [], [], false⟩

/-- The level that a value sets, if it is in the range of those that can be set. -/
def levelOf? (v : Value) : Except Fault (Option LogLevel) := do
  match v.numeric? with
  | none => throw .wrongKind
  | some n =>
    let low := n.compareInt? LogLevel.disable.code
    let high := n.compareInt? LogLevel.inherit.code
    if (low == some .eq || low == some .gt) && high == some .lt then
      return some (← LogLevel.ofValue v)
    else return none

/-- Sets the level and gives the one before it. A level out of range is reported and ignored. -/
def setLevel (v : Value) : Logging (LogLevel × Journal) := do
  let previous := (← get).level
  match ← levelOf? v with
  | some level =>
    modify fun c => { c with level }
    return (previous, [])
  | none => return (previous, [⟨.debug, "Ignoring invalid script log level " ++ v.quoted⟩])

/-- The time stamp in a pattern, which must be a text. -/
def stampIn (pattern : Value) (now : Moment) : Except Fault String :=
  match pattern with
  | .text s => .ok (now.stamp s)
  | _ => .error .wrongKind

/-- The line of a message, if its level passes. -/
def lineOf? (c : LogChannel) (now : Moment) (level message : Value) :
    Except Fault (Option String) := do
  match level.numeric? with
  | none => throw .wrongKind
  | some n =>
    if n.compareInt? LogLevel.error.code == some .lt ||
        n.compareInt? LogLevel.debug.code == some .gt ||
        n.compareInt? c.level.code == some .gt then
      return none
    else
      let stamp ← stampIn c.pattern now
      let l ← LogLevel.ofValue level
      let text ← message.shown
      return some s!"[{l.name}] {stamp} {text}"

/-- Queues a message if its level passes, and tells whether it does. -/
def emit (now : Moment) (level message : Value) : Logging Bool := do
  match ← (← get).lineOf? now level message with
  | some line =>
    modify fun c => { c with queue := c.queue ++ [line] }
    return true
  | none => return false

/-- The message of a traced call. -/
def traceMessage (name : Value) (args : List Value) : Except Fault String := do
  let texts ← args.mapM Value.traceText
  let name ← name.shown
  return "=> " ++ name ++ "(" ++ ", ".intercalate texts ++ ")"

/-- Queues the record of a call, which has the level of debugging. -/
def trace (now : Moment) (name args : Value) : Logging Bool := do
  let args ← args.items
  let message ← traceMessage name args
  emit now (.int LogLevel.debug.code) (.text message)

/-- Takes all lines out of the queue. -/
def drain (c : LogChannel) : List String × LogChannel :=
  (c.queue, { c with queue := [] })

/-! ### Consumers -/

/-- Starts a consumer, unless one runs that can be stopped. -/
def start (c : LogChannel) (sink : Sink) : LogChannel :=
  if c.held then c else { c with consumers := sink :: c.consumers, held := true }

/-- The channel after the end of a consumer. -/
def without (c : LogChannel) (k : Nat) : LogChannel :=
  { c with consumers := c.consumers.eraseIdx k, held := c.held && k != 0 }

/-- Lets a consumer give the oldest line that waits to its sink. -/
def deliver (c : LogChannel) (k : Nat) : LogChannel × List Delivery :=
  match c.consumers[k]?, c.queue with
  | some sink, line :: rest =>
    let c := { c with queue := rest, consumers := c.consumers.set k sink.next }
    let delivery := sink.accept line
    (if delivery.isFatal then c.without k else c, [delivery])
  | _, _ => (c, [])

/-- Lets the consumer that can be stopped give some lines to its sink. -/
def forwardSome (c : LogChannel) : (count : Nat) → LogChannel × List Delivery
  | 0 => (c, [])
  | count + 1 =>
    if c.held then
      let (c, first) := c.deliver 0
      let (c, others) := c.forwardSome count
      (c, first ++ others)
    else (c, [])

/-- Lets the consumer that can be stopped give all lines that wait to its sink. -/
def forward (c : LogChannel) : LogChannel × List Delivery :=
  c.forwardSome c.queue.length

/-- Leaves the consumer that could be stopped running. -/
def release (c : LogChannel) : LogChannel :=
  { c with held := false }

/-- Ends a consumer that was told to stop, if no line waits. -/
def retire (c : LogChannel) (k : Nat) : LogChannel :=
  if c.queue.isEmpty && !(c.held && k == 0) then c.without k else c

/-- Stops the consumer after it has forwarded the lines that wait. -/
def stop (c : LogChannel) : LogChannel × List Delivery :=
  if c.held then
    let (c, deliveries) := c.forward
    -- one that a sink has ended is not there any more
    (if c.held then c.release.retire 0 else c, deliveries)
  else (c, [])

end LogChannel

end NodeScript
