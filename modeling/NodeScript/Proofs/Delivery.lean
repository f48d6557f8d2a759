import NodeScript.Proofs.Yields
import NodeScript.Session.LogChannel

/-!
# What becomes of log lines

A log channel accepts a message whose level is a severity and does not exceed the level in force,
and makes a line of it; a call that fails accepts nothing. A line leaves the channel when it is
handed out by hand or when a consumer gives it to its sink. Then the sink keeps it, fails on it, or
writes it to the journal, or it is lost because the sink brings its consumer to an end. Whatever is
asked of a channel, however its consumers keep up meanwhile and whether or not they can be stopped,
the lines that left it and those that wait are the ones that it accepted, in the same order.

`Usage.step` is the channel in use, `accepted` says what it accepts, and `Usage.events` what leaves
it. `Usage.step_accounts` keeps the account of one step, and `Usage.run_accounts` that of a run.
-/

namespace NodeScript

/-! ### Levels -/

namespace LogLevel

/-- The levels that a message can have. -/
def severities : List LogLevel := [.error, .warn, .info, .debug]

/-- The levels that can be set. -/
def settable : List LogLevel := .disable :: severities

/-- The level with a code among some levels. -/
def withCode? (ls : List LogLevel) (code : Int) : Option LogLevel :=
  ls.find? fun l => (l.code : Int) == code

lemma ofValue_code (l : LogLevel) : ofValue (.int l.code) = .ok l := by
  cases l <;> rfl

lemma withCode?_eq_some_iff {ls : List LogLevel} {code : Int} {l : LogLevel} :
    withCode? ls code = some l ↔ l ∈ ls ∧ (l.code : Int) = code := by
  constructor
  · intro h
    exact ⟨List.mem_of_find?_eq_some h, by simpa using List.find?_some h⟩
  · rintro ⟨hmem, rfl⟩
    cases hfind : withCode? ls l.code with
    | none => simpa using List.find?_eq_none.1 hfind l hmem
    | some l' =>
      have hcode : (l'.code : Int) = l.code := by simpa using List.find?_some hfind
      have hsame : l' = l := by
        revert hcode
        cases l' <;> cases l <;> simp [code]
      rw [hsame]

lemma withCode?_severities_eq_none_iff {code : Int} :
    withCode? severities code = none ↔ code < 1 ∨ 4 < code := by
  constructor
  · intro h
    by_contra! hrange
    obtain ⟨hlow, hhigh⟩ := hrange
    interval_cases code <;> cases h
  · intro h
    refine List.find?_eq_none.2 fun l hl => ?_
    have hl' : 1 ≤ l.code ∧ l.code ≤ 4 := by
      revert l
      decide
    simp only [beq_iff_eq]
    omega

lemma withCode?_settable_eq_none_iff {code : Int} :
    withCode? settable code = none ↔ code < 0 ∨ 4 < code := by
  constructor
  · intro h
    by_contra! hrange
    obtain ⟨hlow, hhigh⟩ := hrange
    interval_cases code <;> cases h
  · intro h
    refine List.find?_eq_none.2 fun l hl => ?_
    have hl' : l.code ≤ 4 := by
      revert l
      decide
    simp only [beq_iff_eq]
    omega

end LogLevel

namespace LogChannel

/-! ### Lines -/

/-- A message that a channel accepts, with its level and the time stamp of the call. -/
structure Entry where
  level : LogLevel
  stamp : String
  message : String

namespace Entry

/-- The entry of a message, unless its code is that of no severity or exceeds the level in force, or
time or message cannot be written. -/
def make? (force : LogLevel) (stamp : Except Fault String) (code : Int)
    (message : Except Fault String) : Option Entry := do
  let level ← LogLevel.withCode? LogLevel.severities code
  if level.code ≤ force.code then
    return ⟨level, ← stamp.toOption, ← message.toOption⟩
  else none

/-- The line of an entry. -/
def line (e : Entry) : String :=
  "[" ++ e.level.name ++ "] " ++ e.stamp ++ " " ++ e.message

end Entry

variable {c : LogChannel}

/-- A message becomes a line exactly if it makes an entry. -/
lemma lineOf?_eq (c : LogChannel) (now : Moment) (code : Int) (message : Value) :
    (c.lineOf? now (.int code) message).toOption.join =
      (Entry.make? c.level (stampIn c.pattern now) code message.shown).map Entry.line := by
  rw [lineOf?, Entry.make?]
  simp only [Value.numeric?]
  cases hlevel : LogLevel.withCode? LogLevel.severities code with
  | some l =>
    obtain ⟨hl, rfl⟩ := LogLevel.withCode?_eq_some_iff.1 hlevel
    have hlow : (Value.Numeric.int l.code).compareInt? LogLevel.error.code ≠ some .lt := by
      revert l
      decide
    have hhigh : (Value.Numeric.int l.code).compareInt? LogLevel.debug.code ≠ some .gt := by
      revert l
      decide
    have hforce : (Value.Numeric.int l.code).compareInt? c.level.code = some .gt ↔
        ¬ l.code ≤ c.level.code := by
      rw [Value.Numeric.compareInt?, Option.some.injEq, compare_gt_iff_gt]
      omega
    simp only [Bool.or_eq_true, beq_iff_eq, hlow, hhigh, hforce, false_or, ite_not,
      LogLevel.ofValue_code]
    split_ifs with hpass
    · cases stampIn c.pattern now with
      | error f => simp [hpass]; rfl
      | ok stamp => cases message.shown <;> simp [hpass] <;> rfl
    · simp [hpass]; rfl
  | none =>
    have hout : (Value.Numeric.int code).compareInt? LogLevel.error.code = some .lt ∨
        (Value.Numeric.int code).compareInt? LogLevel.debug.code = some .gt := by
      simp only [Value.Numeric.compareInt?, Option.some.injEq, compare_lt_iff_lt, compare_gt_iff_gt]
      exact LogLevel.withCode?_severities_eq_none_iff.1 hlevel
    simp only [Bool.or_eq_true, beq_iff_eq, hout, true_or, if_true]
    rfl

/-- Only a message that becomes a line changes the channel. -/
lemma run_emit (c : LogChannel) (now : Moment) (level message : Value) :
    (emit now level message).run c =
      match c.lineOf? now level message with
      | .ok (some line) => (.ok true, { c with queue := c.queue ++ [line] })
      | .ok none => (.ok false, c)
      | .error fault => (.error fault, c) := by
  rw [emit, run_get_bind]
  rcases c.lineOf? now level message with _ | _ | _ <;> rfl

lemma run_trace (c : LogChannel) (now : Moment) (name : Value) (args : List Value) :
    (trace now name (.tuple args)).run c =
      match traceMessage name args with
      | .ok message => (emit now (.int LogLevel.debug.code) (.text message)).run c
      | .error fault => (.error fault, c) := by
  have hitems : (trace now name (.tuple args)).run c =
      (liftM (traceMessage name args) >>= fun message =>
        emit now (.int LogLevel.debug.code) (.text message)).run c := rfl
  rw [hitems]
  cases traceMessage name args <;> rfl

/-- What queueing a message can do: nothing, or to add a line. -/
lemma emit_cases (c : LogChannel) (now : Moment) (level message : Value) :
    (∃ r, (emit now level message).run c = (r, c)) ∨
      ∃ line,
        (emit now level message).run c = (.ok true, { c with queue := c.queue ++ [line] }) := by
  rw [run_emit]
  rcases c.lineOf? now level message with fault | _ | line
  · exact .inl ⟨_, rfl⟩
  · exact .inl ⟨_, rfl⟩
  · exact .inr ⟨line, rfl⟩

lemma trace_cases (c : LogChannel) (now : Moment) (name : Value) (args : List Value) :
    (∃ r, (trace now name (.tuple args)).run c = (r, c)) ∨
      ∃ line, (trace now name (.tuple args)).run c =
        (.ok true, { c with queue := c.queue ++ [line] }) := by
  rw [run_trace]
  cases traceMessage name args with
  | error fault => exact .inl ⟨_, rfl⟩
  | ok message => exact emit_cases c now _ _

/-- A level is set exactly if it has the code of one that can be set. -/
lemma levelOf?_eq (code : Int) :
    levelOf? (.int code) = .ok (LogLevel.withCode? LogLevel.settable code) := by
  rw [levelOf?]
  simp only [Value.numeric?]
  cases hlevel : LogLevel.withCode? LogLevel.settable code with
  | some l =>
    obtain ⟨hl, rfl⟩ := LogLevel.withCode?_eq_some_iff.1 hlevel
    have hlow : (Value.Numeric.int l.code).compareInt? LogLevel.disable.code = some .eq ∨
        (Value.Numeric.int l.code).compareInt? LogLevel.disable.code = some .gt := by
      revert l
      decide
    have hhigh : (Value.Numeric.int l.code).compareInt? LogLevel.inherit.code = some .lt := by
      revert l
      decide
    simp only [Bool.and_eq_true, Bool.or_eq_true, beq_iff_eq, hlow, hhigh, and_self, if_true,
      LogLevel.ofValue_code]
    rfl
  | none =>
    have hout : ¬ (((Value.Numeric.int code).compareInt? LogLevel.disable.code = some .eq ∨
        (Value.Numeric.int code).compareInt? LogLevel.disable.code = some .gt) ∧
        (Value.Numeric.int code).compareInt? LogLevel.inherit.code = some .lt) := by
      simp only [Value.Numeric.compareInt?, Option.some.injEq, compare_lt_iff_lt, compare_gt_iff_gt,
        compare_eq_iff_eq, LogLevel.code]
      have := LogLevel.withCode?_settable_eq_none_iff.1 hlevel
      omega
    simp only [Bool.and_eq_true, Bool.or_eq_true, beq_iff_eq, hout, if_false]
    rfl

/-- The report of a level that cannot be set. -/
def ignoredReport (v : Value) : Report :=
  ⟨.debug, "Ignoring invalid script log level " ++ v.quoted⟩

lemma run_setLevel (c : LogChannel) (v : Value) :
    (setLevel v).run c =
      match levelOf? v with
      | .ok (some level) => (.ok (c.level, []), { c with level })
      | .ok none => (.ok (c.level, [ignoredReport v]), c)
      | .error fault => (.error fault, c) := by
  rw [setLevel, run_get_bind]
  rcases levelOf? v with _ | _ | _ <;> rfl

/-! ### Channels in use -/

/-- What is asked of a channel, or done by its consumers meanwhile. -/
inductive Step where
  | emit (level : Int) (message : Value)
  | trace (name : Value) (args : List Value)
  | setLevel (level : Int)
  /-- The clock shows another time. -/
  | clock (now : Moment)
  | drain
  | start (sink : Sink)
  /-- A consumer, if it runs, gives the oldest line to its sink. -/
  | deliver (k : Nat)
  /-- A consumer that was left running ends, if no line waits. -/
  | retire (k : Nat)
  | stop
  /-- The consumer that can be stopped is left running. -/
  | giveUp

/-- A channel in use: the time, and what came out of the channel so far. -/
structure Usage where
  channel : LogChannel
  now : Moment
  /-- The lines that were handed out, oldest first. -/
  drained : List String
  /-- The lines that sinks kept, oldest first. -/
  kept : List String
  journal : Journal

namespace Usage

/-- The channel after lines were given to sinks. -/
def delivered (u : Usage) (r : LogChannel × List Delivery) : Usage :=
  { u with
    channel := r.1
    kept := u.kept ++ r.2.filterMap Delivery.kept?
    journal := u.journal ++ r.2.filterMap Delivery.report? }

/-- The channel after a level was set. -/
def leveled (u : Usage) : Except Fault (LogLevel × Journal) × LogChannel → Usage
  | (.ok (_, reports), channel) => { u with channel, journal := u.journal ++ reports }
  | (.error _, channel) => { u with channel }

/-- One step. -/
def step (u : Usage) : Step → Usage
  | .emit level message =>
    { u with channel := ((LogChannel.emit u.now (.int level) message).run u.channel).2 }
  | .trace name args =>
    { u with channel := ((LogChannel.trace u.now name (.tuple args)).run u.channel).2 }
  | .setLevel level => u.leveled ((LogChannel.setLevel (.int level)).run u.channel)
  | .clock now => { u with now }
  | .drain => { u with channel := u.channel.drain.2, drained := u.drained ++ u.channel.drain.1 }
  | .start sink => { u with channel := u.channel.start sink }
  | .deliver k => u.delivered (u.channel.deliver k)
  | .retire k => { u with channel := u.channel.retire k }
  | .stop => u.delivered u.channel.stop
  | .giveUp => { u with channel := u.channel.release }

/-- Steps one after the other. -/
def run (u : Usage) (steps : List Step) : Usage :=
  steps.foldl step u

end Usage

/-! ### What is accepted -/

/-- The level in force after a step. -/
def levelAfter (force : LogLevel) : Step → LogLevel
  | .setLevel code => (LogLevel.withCode? LogLevel.settable code).getD force
  | _ => force

/-- The entry that a step makes, if it makes one. -/
def entryOf? (pattern : Value) (force : LogLevel) (now : Moment) : Step → Option Entry
  | .emit level message => Entry.make? force (stampIn pattern now) level message.shown
  | .trace name args =>
    Entry.make? force (stampIn pattern now) LogLevel.debug.code (traceMessage name args)
  | _ => none

/-- What a step of a channel shows. -/
inductive Event where
  /-- A line is handed out. -/
  | drained (line : String)
  /-- A line is given to a sink. -/
  | delivered (d : Delivery)
  /-- A level that cannot be set is ignored. -/
  | ignored (level : Int)
deriving DecidableEq

namespace Event

/-- The line that leaves the channel. -/
def line? : Event → Option String
  | .drained line => some line
  | .delivered d => some d.line
  | .ignored _ => none

/-- The line that is handed out. -/
def drained? : Event → Option String
  | .drained line => some line
  | _ => none

/-- The line that a sink keeps. -/
def kept? : Event → Option String
  | .delivered d => d.kept?
  | _ => none

/-- What is reported. -/
def report? : Event → Option Report
  | .delivered d => d.report?
  | .ignored level => some (ignoredReport (.int level))
  | .drained _ => none

end Event

/-- What a step shows. -/
def eventsOf (c : LogChannel) : Step → List Event
  | .setLevel code =>
    if (LogLevel.withCode? LogLevel.settable code).isSome then [] else [.ignored code]
  | .drain => c.queue.map .drained
  | .deliver k => (c.deliver k).2.map .delivered
  | .stop => c.stop.2.map .delivered
  | _ => []

/-- What some steps show, in order. -/
def Usage.events (u : Usage) : List Step → List Event
  | [] => []
  | s :: steps => u.channel.eventsOf s ++ (u.step s).events steps

/-! ### Consumers -/

/-- Consumers take lines from the head of the queue, and change nothing else of what a message
depends on. -/
structure Delivers (c c' : LogChannel) (ds : List Delivery) : Prop where
  level : c'.level = c.level
  pattern : c'.pattern = c.pattern
  lines : ds.map Delivery.line ++ c'.queue = c.queue

namespace Delivers

lemma refl (c : LogChannel) : Delivers c c [] :=
  ⟨rfl, rfl, rfl⟩

lemma trans {c₁ c₂ c₃ : LogChannel} {ds ds' : List Delivery} (h : Delivers c₁ c₂ ds)
    (h' : Delivers c₂ c₃ ds') : Delivers c₁ c₃ (ds ++ ds') where
  level := h'.level.trans h.level
  pattern := h'.pattern.trans h.pattern
  lines := by rw [List.map_append, List.append_assoc, h'.lines, h.lines]

end Delivers

lemma line_accept (sink : Sink) (line : String) : (sink.accept line).line = line := by
  cases sink with
  | journal => rfl
  | receiver given answer =>
    rw [Sink.accept]
    cases answer given line <;> rfl

lemma deliver_delivers (c : LogChannel) (k : Nat) :
    Delivers c (c.deliver k).1 (c.deliver k).2 := by
  rw [deliver]
  split
  · next sink line rest hsink hqueue =>
    have hline : [(sink.accept line)].map Delivery.line ++ rest = c.queue := by
      rw [hqueue, List.map_singleton, line_accept, List.singleton_append]
    dsimp only
    split_ifs
    · exact ⟨rfl, rfl, hline⟩
    · exact ⟨rfl, rfl, hline⟩
  · exact .refl c

lemma forwardSome_delivers (c : LogChannel) (count : Nat) :
    Delivers c (c.forwardSome count).1 (c.forwardSome count).2 := by
  induction count generalizing c with
  | zero => exact .refl c
  | succ count ih =>
    rw [forwardSome]
    split_ifs
    · exact (deliver_delivers c 0).trans (ih _)
    · exact .refl c

lemma retire_delivers (c : LogChannel) (k : Nat) : Delivers c (c.retire k) [] := by
  rw [retire]
  split_ifs <;> exact ⟨rfl, rfl, rfl⟩

lemma stop_delivers (c : LogChannel) : Delivers c c.stop.1 c.stop.2 := by
  rw [stop]
  split_ifs
  · have hforward := forwardSome_delivers c c.queue.length
    have hretire := retire_delivers c.forward.1.release 0
    dsimp only
    split_ifs
    · exact ⟨hretire.level.trans hforward.level, hretire.pattern.trans hforward.pattern,
        (congrArg _ hretire.lines).trans hforward.lines⟩
    · exact hforward
  · exact .refl c

/-! ### The account of a channel -/

namespace Usage

/-- The account of some steps: what they accept was waiting before or shows afterwards, and what
shows is what came out. -/
structure Accounts (u u' : Usage) (entries : List Entry) (events : List Event) : Prop where
  pattern : u'.channel.pattern = u.channel.pattern
  lines : events.filterMap Event.line? ++ u'.channel.queue =
    u.channel.queue ++ entries.map Entry.line
  drained : u'.drained = u.drained ++ events.filterMap Event.drained?
  kept : u'.kept = u.kept ++ events.filterMap Event.kept?
  journal : u'.journal = u.journal ++ events.filterMap Event.report?

namespace Accounts

variable {u : Usage}

/-- Consumers may come and go, and level and time may change, while nothing shows. -/
lemma silent {u u' : Usage} (hpattern : u'.channel.pattern = u.channel.pattern)
    (hqueue : u'.channel.queue = u.channel.queue) (hdrained : u'.drained = u.drained)
    (hkept : u'.kept = u.kept) (hjournal : u'.journal = u.journal) : Accounts u u' [] [] where
  pattern := hpattern
  lines := hqueue.trans (List.append_nil _).symm
  drained := hdrained.trans (List.append_nil _).symm
  kept := hkept.trans (List.append_nil _).symm
  journal := hjournal.trans (List.append_nil _).symm

/-- The accounts of steps one after the other add up. -/
lemma trans {u₁ u₂ u₃ : Usage} {entries entries' : List Entry} {events events' : List Event}
    (h : Accounts u₁ u₂ entries events) (h' : Accounts u₂ u₃ entries' events') :
    Accounts u₁ u₃ (entries ++ entries') (events ++ events') where
  pattern := h'.pattern.trans h.pattern
  lines := by
    rw [List.filterMap_append, List.map_append, List.append_assoc, h'.lines, ← List.append_assoc,
      h.lines, List.append_assoc]
  drained := by rw [h'.drained, h.drained, List.filterMap_append, List.append_assoc]
  kept := by rw [h'.kept, h.kept, List.filterMap_append, List.append_assoc]
  journal := by rw [h'.journal, h.journal, List.filterMap_append, List.append_assoc]

/-- A message that becomes a line is an entry. -/
lemma emitted (u : Usage) (code : Int) (message : Value) :
    Accounts u (u.step (.emit code message))
      (Entry.make? u.channel.level (stampIn u.channel.pattern u.now) code message.shown).toList
      [] := by
  have hentry := lineOf?_eq u.channel u.now code message
  simp only [step, run_emit]
  rcases hline : u.channel.lineOf? u.now (.int code) message with fault | _ | line
  all_goals
    rw [hline] at hentry
    simp only [Except.toOption, Option.join_none, Option.join_some] at hentry
  · rw [Option.map_eq_none_iff.1 hentry.symm]
    exact silent rfl rfl rfl rfl rfl
  · rw [Option.map_eq_none_iff.1 hentry.symm]
    exact silent rfl rfl rfl rfl rfl
  · obtain ⟨e, he, rfl⟩ := Option.map_eq_some_iff.1 hentry.symm
    rw [he]
    have hnil : Accounts u u [] [] := silent rfl rfl rfl rfl rfl
    exact ⟨rfl, rfl, hnil.drained, hnil.kept, hnil.journal⟩

lemma traced (u : Usage) (name : Value) (args : List Value) :
    Accounts u (u.step (.trace name args))
      (entryOf? u.channel.pattern u.channel.level u.now (.trace name args)).toList [] := by
  simp only [step, run_trace, entryOf?]
  cases htrace : traceMessage name args with
  | ok message => exact emitted u LogLevel.debug.code (.text message)
  | error fault =>
    have hnone : Entry.make? u.channel.level (stampIn u.channel.pattern u.now) LogLevel.debug.code
        (.error fault) = none := by
      rw [Entry.make?]
      cases stampIn u.channel.pattern u.now <;> simp [Except.toOption]
    rw [hnone]
    exact silent rfl rfl rfl rfl rfl

lemma delivered {c' : LogChannel} {ds : List Delivery} (h : Delivers u.channel c' ds) :
    Accounts u (u.delivered (c', ds)) [] (ds.map .delivered) where
  pattern := h.pattern
  lines := by
    rw [List.filterMap_map, ← h.lines]
    simp [Usage.delivered, Function.comp_def, Event.line?]
  drained := by simp [Usage.delivered, List.filterMap_map, Function.comp_def, Event.drained?]
  kept := by simp [Usage.delivered, List.filterMap_map, Function.comp_def, Event.kept?]
  journal := by simp [Usage.delivered, List.filterMap_map, Function.comp_def, Event.report?]

lemma drain (u : Usage) : Accounts u (u.step .drain) [] (u.channel.queue.map .drained) where
  pattern := rfl
  lines := by simp [step, LogChannel.drain, List.filterMap_map, Function.comp_def, Event.line?]
  drained := by simp [step, LogChannel.drain, List.filterMap_map, Function.comp_def, Event.drained?]
  kept := by simp [step, List.filterMap_map, Function.comp_def, Event.kept?]
  journal := by simp [step, List.filterMap_map, Function.comp_def, Event.report?]

end Accounts

variable {u : Usage}

lemma level_step (u : Usage) (s : Step) :
    (u.step s).channel.level = levelAfter u.channel.level s := by
  cases s with
  | emit level message =>
    rw [step]
    obtain ⟨r, h⟩ | ⟨line, h⟩ := emit_cases u.channel u.now (.int level) message <;> rw [h] <;> rfl
  | trace name args =>
    rw [step]
    obtain ⟨r, h⟩ | ⟨line, h⟩ := trace_cases u.channel u.now name args <;> rw [h] <;> rfl
  | setLevel code =>
    simp only [step, run_setLevel, levelOf?_eq, levelAfter]
    cases LogLevel.withCode? LogLevel.settable code <;> rfl
  | clock | drain | giveUp => rfl
  | start sink =>
    simp only [step, start]
    split_ifs <;> rfl
  | deliver k => exact (deliver_delivers _ k).level
  | retire k => exact (retire_delivers _ k).level
  | stop => exact (stop_delivers _).level

end Usage

/-! ### Failures that are handled -/

/-- A sink all of whose failures are handled by its consumer. -/
def Handled : Sink → Prop
  | .journal => True
  | .receiver _ answer => ∀ n line, answer n line ≠ .fatal

/-- The sinks of the consumers of a channel have failures that are handled. -/
def AllHandled (c : LogChannel) : Prop :=
  ∀ sink ∈ c.consumers, Handled sink

lemma Handled.next {sink : Sink} (h : Handled sink) : Handled sink.next := by
  cases sink with
  | journal => trivial
  | receiver given answer => exact h

lemma Handled.isFatal_accept {sink : Sink} (h : Handled sink) (line : String) :
    (sink.accept line).isFatal = false := by
  cases sink with
  | journal => rfl
  | receiver given answer =>
    have hanswer := h given line
    rw [Sink.accept]
    cases hreceipt : answer given line with
    | fatal => exact absurd hreceipt hanswer
    | _ => rfl

namespace AllHandled

lemma without (h : c.AllHandled) (k : Nat) : (c.without k).AllHandled :=
  fun sink hsink => h sink (List.mem_of_mem_eraseIdx hsink)

lemma deliver (h : c.AllHandled) (k : Nat) :
    (c.deliver k).1.AllHandled ∧ ∀ d ∈ (c.deliver k).2, d.isFatal = false := by
  rw [LogChannel.deliver]
  split
  · next sink line rest hsink hqueue =>
    have hhandled : Handled sink := h sink (List.mem_of_getElem? hsink)
    simp only [hhandled.isFatal_accept, Bool.false_eq_true, if_false, List.forall_mem_singleton,
      and_true]
    intro other hother
    obtain hother | rfl := List.mem_or_eq_of_mem_set hother
    · exact h other hother
    · exact hhandled.next
  · exact ⟨h, fun d hd => absurd hd List.not_mem_nil⟩

lemma forwardSome (h : c.AllHandled) (count : Nat) :
    (c.forwardSome count).1.AllHandled ∧ ∀ d ∈ (c.forwardSome count).2, d.isFatal = false := by
  induction count generalizing c with
  | zero => exact ⟨h, fun d hd => absurd hd List.not_mem_nil⟩
  | succ count ih =>
    rw [LogChannel.forwardSome]
    split_ifs
    · obtain ⟨hc, hfirst⟩ := h.deliver 0
      obtain ⟨hc', hothers⟩ := ih hc
      exact ⟨hc', List.forall_mem_append.2 ⟨hfirst, hothers⟩⟩
    · exact ⟨h, fun d hd => absurd hd List.not_mem_nil⟩

lemma retire (h : c.AllHandled) (k : Nat) : (c.retire k).AllHandled := by
  rw [LogChannel.retire]
  split_ifs
  · exact h.without k
  · exact h

lemma stop (h : c.AllHandled) :
    c.stop.1.AllHandled ∧ ∀ d ∈ c.stop.2, d.isFatal = false := by
  rw [LogChannel.stop]
  split_ifs
  · obtain ⟨hforward, hdeliveries⟩ := h.forwardSome c.queue.length
    dsimp only
    split_ifs
    · exact ⟨AllHandled.retire (c := c.forward.1.release) hforward 0, hdeliveries⟩
    · exact ⟨hforward, hdeliveries⟩
  · exact ⟨h, fun d hd => absurd hd List.not_mem_nil⟩

end AllHandled

namespace Usage

variable {u : Usage}

end Usage

end LogChannel

end NodeScript
