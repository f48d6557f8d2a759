import NodeScript.Proofs.Calls
import NodeScript.Proofs.Delivery

/-!
# Restoring the log level

Code with a log level of its own sets the level, keeps the one that was in force, and sets that
again at its end. The level that is set again must pass the same test as any other. So a level is
restored if it is one that can be set, and `LogLevel.inherit` is not. The settings never give this
level, but a channel can be created with it, and it stays in force until a level is set.

`Leveled` are the scripts whose levels are set and set back in pairs. `Leveled.levelAfter` is what
such a script does to the level, and `Session.level_run` says that this is all that it does.
-/

namespace NodeScript

/-! ### The level of a new channel -/

namespace LogLevel

lemma mem_settable_iff {l : LogLevel} : l ∈ settable ↔ l ≠ .inherit := by
  cases l <;> decide

lemma isSome_withCode?_settable_iff {code : Int} :
    (withCode? settable code).isSome = true ↔ 0 ≤ code ∧ code ≤ 4 := by
  rw [← Option.ne_none_iff_isSome, Ne, withCode?_settable_eq_none_iff]
  omega

lemma withCode?_code {l : LogLevel} (hl : l ∈ settable) : withCode? settable l.code = some l :=
  withCode?_eq_some_iff.2 ⟨hl, rfl⟩

end LogLevel

open LogLevel (settable)

lemma Settings.logLevel_mem {env : Environment} {l : LogLevel} (h : logLevel env = .ok l) :
    l ∈ settable := by
  obtain ⟨level, -, h⟩ := Except.bind_eq_ok_iff.1 h
  split_ifs at h with hinherit
  · obtain ⟨_, hthrow, -⟩ := Except.bind_eq_ok_iff.1 h
    cases hthrow
  · cases h
    exact LogLevel.mem_settable_iff.2 (by simpa using hinherit)

namespace LogChannel

/-- The level of a new channel is the one that it is given, or that of the settings. -/
lemma cases_of_create {env : Environment} {level pattern : Value} {c : LogChannel}
    (h : create env level pattern = .ok c) :
    level = .null ∧ Settings.logLevel env = .ok c.level ∨ LogLevel.ofValue level = .ok c.level := by
  cases level with
  | null =>
    obtain ⟨l, hl, h⟩ := Except.bind_eq_ok_iff.1 h
    cases h
    exact .inl ⟨rfl, hl⟩
  | _ =>
    simp only [create] at h
    obtain ⟨l, hl, h⟩ := Except.bind_eq_ok_iff.1 h
    cases h
    exact .inr hl

/-- A channel has a level that cannot be set just if it was given to it. -/
lemma level_of_create {env : Environment} {level pattern : Value} {c : LogChannel}
    (h : create env level pattern = .ok c) :
    c.level ∈ settable ↔ LogLevel.ofValue level ≠ .ok .inherit := by
  obtain ⟨rfl, hl⟩ | hl := cases_of_create h
  · have hnull : LogLevel.ofValue .null = .error (.notALevel .null) := rfl
    exact iff_of_true (Settings.logLevel_mem hl) (by simp [hnull])
  · rw [hl, LogLevel.mem_settable_iff, Ne, Ne, Except.ok.injEq]

lemma create_code (env : Environment) (l : LogLevel) (pattern : Value) :
    ∃ c, create env (.int l.code) pattern = .ok c ∧ c.level = l := by
  refine ⟨⟨l, pattern.orElse (.text (Settings.logTimeFormat env)), [], [], false⟩, ?_, rfl⟩
  simp only [create, LogLevel.ofValue_code]
  rfl

/-- The level in force after a step can be set if the one before could, or if the step sets one. -/
lemma levelAfter_mem_iff {force : LogLevel} {s : Step} :
    levelAfter force s ∈ settable ↔
      force ∈ settable ∨ ∃ n, s = .setLevel n ∧ 0 ≤ n ∧ n ≤ 4 := by
  cases s with
  | setLevel code =>
    simp only [levelAfter, Step.setLevel.injEq, exists_eq_left',
      ← LogLevel.isSome_withCode?_settable_iff]
    cases hcode : LogLevel.withCode? settable code with
    | none => simp
    | some l => simp [(LogLevel.withCode?_eq_some_iff.1 hcode).1]
  | _ => simp [levelAfter]

/-- Once the level is one that can be set, it stays so, and only setting one makes it so. -/
lemma Usage.level_run_mem_iff (u : Usage) (steps : List Step) :
    (u.run steps).channel.level ∈ settable ↔
      u.channel.level ∈ settable ∨ ∃ n, Step.setLevel n ∈ steps ∧ 0 ≤ n ∧ n ≤ 4 := by
  induction steps generalizing u with
  | nil => simp [run]
  | cons s steps ih =>
    have hrun : u.run (s :: steps) = (u.step s).run steps := rfl
    rw [hrun, ih, level_step, levelAfter_mem_iff, or_assoc]
    refine or_congr_right ?_
    simp only [List.mem_cons, or_and_right, exists_or, eq_comm (a := s)]

end LogChannel

/-! ### Scripts that set levels back -/

/-- Whether a call sets the log level. -/
def Command.setsLevel : Command → Bool
  | .setLogLevel _ => true
  | _ => false

/-- A script whose levels are set and set back in pairs. -/
inductive Leveled where
  | done
  | call (c : Command) (quiet : c.setsLevel = false) (rest : Leveled)
  /-- Sets a level, does the work of `body` and sets the level back. -/
  | bracket (level : Int) (body rest : Leveled)

namespace Leveled

/-- The levels that a script sets, without those that it sets back. -/
def levels : Leveled → List Int
  | .done => []
  | .call _ _ rest => rest.levels
  | .bracket level body rest => level :: (body.levels ++ rest.levels)

/-- The level in force after a script. -/
def levelAfter (force : LogLevel) : Leveled → LogLevel
  | .done => force
  | .call _ _ rest => rest.levelAfter force
  | .bracket level body rest =>
    let inner := body.levelAfter ((LogLevel.withCode? settable level).getD force)
    rest.levelAfter ((LogLevel.withCode? settable force.code).getD inner)

/-- A level that can be set is set back. -/
lemma levelAfter_of_mem {force : LogLevel} (hforce : force ∈ settable) (p : Leveled) :
    p.levelAfter force = force := by
  induction p with
  | done => rfl
  | call c quiet rest ih => exact ih
  | bracket level body rest _ ih =>
    simp only [levelAfter, LogLevel.withCode?_code hforce, Option.getD_some]
    exact ih

/-- A level that cannot be set is lost at the first bracket that sets one. -/
lemma levelAfter_inherit_iff (p : Leveled) :
    p.levelAfter .inherit = .inherit ↔ ∀ n ∈ p.levels, n < 0 ∨ 4 < n := by
  have hinherit : LogLevel.withCode? settable LogLevel.inherit.code = none := by decide
  induction p with
  | done => simp [levelAfter, levels]
  | call c quiet rest ih => exact ih
  | bracket level body rest ihbody ihrest =>
    simp only [levelAfter, levels, hinherit, Option.getD_none, List.forall_mem_cons,
      List.forall_mem_append]
    refine Iff.trans ?_
      (and_congr LogLevel.withCode?_settable_eq_none_iff (and_congr ihbody ihrest))
    cases hlevel : LogLevel.withCode? settable level with
    | some l =>
      have hl := (LogLevel.withCode?_eq_some_iff.1 hlevel).1
      rw [Option.getD_some, levelAfter_of_mem hl, levelAfter_of_mem hl]
      simpa using LogLevel.mem_settable_iff.1 hl
    | none =>
      rw [Option.getD_none]
      by_cases hbody : body.levelAfter .inherit = .inherit
      · simp [hbody]
      · rw [levelAfter_of_mem (LogLevel.mem_settable_iff.2 hbody)]
        simp [hbody]

/-- A script leaves the level in force just if this can be set or the script sets none. -/
lemma levelAfter_eq_iff (force : LogLevel) (p : Leveled) :
    p.levelAfter force = force ↔ force ∈ settable ∨ ∀ n ∈ p.levels, n < 0 ∨ 4 < n := by
  by_cases hforce : force ∈ settable
  · exact iff_of_true (levelAfter_of_mem hforce p) (.inl hforce)
  · obtain rfl : force = .inherit := by simpa [LogLevel.mem_settable_iff] using hforce
    rw [levelAfter_inherit_iff]
    simp [hforce]

end Leveled

namespace Session

variable (s : Session)

/-- Does the work of a script. A call that fails is passed over. -/
def run (s : Session) : Leveled → Session
  | .done => s
  | .call c _ rest => (s.call c).session.run rest
  | .bracket level body rest =>
    let set := s.call (.setLogLevel (.int level))
    let inner := set.session.run body
    match set.result with
    | .ok previous => (inner.call (.setLogLevel previous)).session.run rest
    | .error _ => inner

lemma log_withScopes (r : Except Failure Unit × Scopes) : (s.withScopes r).session.log = s.log := by
  rcases r with ⟨_ | _, _⟩ <;> rfl

lemma level_withLog {α : Type} (result : α → Value × Journal) (r : Except Fault α × LogChannel) :
    (s.withLog result r).session.log.level = r.2.level := by
  rcases r with ⟨_ | _, _⟩ <;> rfl

lemma level_call {c : Command} (hc : c.setsLevel = false) :
    (s.call c).session.log.level = s.log.level := by
  cases c with
  | init pairs =>
    rw [call_init]
    split_ifs
    · rfl
    · cases pairVariables pairs [] <;> rfl
  | deinit => rw [call_deinit, log_withScopes]
  | initcmd name args =>
    rw [call_initcmd, level_withLog]
    obtain ⟨r, h⟩ | ⟨line, h⟩ := LogChannel.trace_cases s.log s.now name args <;> rw [h]
  | logOutput level message =>
    rw [call_logOutput, level_withLog]
    obtain ⟨r, h⟩ | ⟨line, h⟩ := LogChannel.emit_cases s.log s.now level message <;> rw [h]
  | macroCall text => rw [call_macroCall]
  | setLogLevel level => cases hc
  | setVariable name value =>
    rw [call_setVariable]
    cases value.variableText with
    | error fault => rfl
    | ok text => rw [log_withScopes]
  | setYamlVars text =>
    rw [call_setYamlVars]
    cases readVariables text with
    | error failure => rfl
    | ok t => rw [log_withScopes]

/-- Setting a level gives the code of the one before. -/
lemma call_setLogLevel_int (n : Int) :
    (s.call (.setLogLevel (.int n))).result = .ok (.int s.log.level.code) ∧
      (s.call (.setLogLevel (.int n))).session.log.level =
        (LogLevel.withCode? settable n).getD s.log.level := by
  rw [call_setLogLevel, LogChannel.run_setLevel, LogChannel.levelOf?_eq]
  cases LogLevel.withCode? settable n <;> exact ⟨rfl, rfl⟩

lemma level_run (p : Leveled) : (s.run p).log.level = p.levelAfter s.log.level := by
  induction p generalizing s with
  | done => rfl
  | call c quiet rest ih => rw [run, ih, s.level_call quiet, Leveled.levelAfter]
  | bracket n body rest ihbody ihrest =>
    obtain ⟨hresult, hset⟩ := s.call_setLogLevel_int n
    simp only [run, hresult, Leveled.levelAfter]
    rw [ihrest, (call_setLogLevel_int _ _).2, ihbody, hset]

/-- The level is restored just if it can be set. The settings give such a level only, and the level
of a channel or session is one just if it was not created to inherit its level, or if a level was
set since. A script that sets levels back ends with the level that it began with just if this can
be set or the script sets none. -/
theorem level_restored_iff (env : Environment) (level pattern : Value) (u : LogChannel.Usage)
    (steps : List LogChannel.Step) (p : Leveled) :
    (∀ l, Settings.logLevel env = .ok l → l ∈ settable) ∧
    (∀ l : LogLevel, ∃ c, LogChannel.create env (.int l.code) pattern = .ok c ∧ c.level = l) ∧
    (∀ c, LogChannel.create env level pattern = .ok c →
      (c.level ∈ settable ↔ LogLevel.ofValue level ≠ .ok .inherit)) ∧
    (∀ now sink t, create env level pattern now sink = .ok t →
      (t.log.level ∈ settable ↔ LogLevel.ofValue level ≠ .ok .inherit)) ∧
    ((u.run steps).channel.level ∈ settable ↔
      u.channel.level ∈ settable ∨
        ∃ n, LogChannel.Step.setLevel n ∈ steps ∧ 0 ≤ n ∧ n ≤ 4) ∧
    ((s.run p).log.level = s.log.level ↔
      s.log.level ∈ settable ∨ ∀ n ∈ p.levels, n < 0 ∨ 4 < n) := by
  refine ⟨fun l => Settings.logLevel_mem, fun l => LogChannel.create_code env l pattern,
    fun c => LogChannel.level_of_create, ?_, u.level_run_mem_iff steps, ?_⟩
  · intro now sink t ht
    obtain ⟨log, hlog, ht⟩ := Except.bind_eq_ok_iff.1 ht
    cases ht
    exact LogChannel.level_of_create hlog
  · rw [level_run]
    exact Leveled.levelAfter_eq_iff _ p

/-- A new session with a level by code. -/
def startedAt (code : Int) : Except Fault Session :=
  create [] (.int code) .null ⟨⟨2024, 1, 2⟩, 3, 4, 5, 0, none⟩ .journal

/-- Calls to log around a level that is set back, and levels out of range between. -/
def rounds : Leveled :=
  .call (.initcmd (.text "send") [.int 1]) rfl
    (.bracket 4 (.call (.logOutput (.int 3) (.text "sent")) rfl (.bracket 9 .done .done))
      (.bracket (-1) (.bracket 0 .done .done) .done))

/-- The level to warn is back after it, also where a level in it is out of range. -/
theorem rounds_restored :
    ∃ s, startedAt 2 = .ok s ∧ s.log.level ∈ settable ∧ (s.run rounds).log.level = s.log.level := by
  have hstarted : (startedAt 2).isOk = true := by decide +kernel
  obtain ⟨s, hs⟩ := exists_ok_of_isOk hstarted
  obtain ⟨-, -, -, hcreate, -, hrun⟩ :=
    s.level_restored_iff [] (.int 2) .null ⟨s.log, s.now, [], [], []⟩ [] rounds
  have hlevel : LogLevel.ofValue (.int 2) = .ok .warn := LogLevel.ofValue_code .warn
  have hmem : s.log.level ∈ settable := (hcreate _ _ _ hs).2 (by simp [hlevel])
  exact ⟨s, hs, hmem, hrun.2 (.inl hmem)⟩

/-- A session that inherits its level is left with the level of the code in it. -/
theorem inherited_level_lost :
    ∃ s, startedAt LogLevel.inherit.code = .ok s ∧ s.log.level = .inherit ∧
      (s.run (.bracket 1 .done .done)).log.level = .error :=
  ⟨⟨.empty, ⟨.inherit, .text (Settings.logTimeFormat []), [], [], false⟩,
    ⟨⟨2024, 1, 2⟩, 3, 4, 5, 0, none⟩, .journal⟩, rfl, rfl, rfl⟩

end Session

end NodeScript
