import NodeScript.Proofs.Yields
import NodeScript.Session.Basic

/-!
# Calls of a session

What each call of a session comes to, one lemma for each of them. A call that reads before it writes
comes down to what it reads; a call that works on the scopes or on the log comes down to that work.
-/

namespace NodeScript.Session

variable (s : Session) {α : Type}

/-- The outcome of work on the scopes. -/
def withScopes (s : Session) : Except Failure Unit × Scopes → Outcome
  | (.ok _, scopes) => ⟨.ok .null, { s with scopes }, []⟩
  | (.error failure, scopes) => ⟨.error failure, { s with scopes }, []⟩

/-- The outcome of work on the log, of which `result` tells the result and what is reported. -/
def withLog (s : Session) (result : α → Value × Journal) : Except Fault α × LogChannel → Outcome
  | (.ok a, log) => ⟨.ok (result a).1, { s with log }, (result a).2⟩
  | (.error fault, log) => ⟨.error (.fault fault), { s with log }, []⟩

lemma outcome_scoping (w : Scoping Unit) :
    Outcome.ofRun ((do scoping w; return (.null, []) : Acting (Value × Journal)).run s) =
      s.withScopes (w.run s.scopes) := by
  have hrun : (do scoping w; return (.null, []) : Acting (Value × Journal)).run s =
      ExceptT.bindCont (m := StateM Session) (fun _ => pure (.null, [])) (w.run s.scopes).1
        { s with scopes := (w.run s.scopes).2 } := rfl
  rw [hrun]
  rcases w.run s.scopes with ⟨_ | _, _⟩ <;> rfl

lemma outcome_logging (w : Logging α) (result : α → Value × Journal) :
    Outcome.ofRun ((do return result (← logging w) : Acting (Value × Journal)).run s) =
      s.withLog result (w.run s.log) := by
  have hrun : (do return result (← logging w) : Acting (Value × Journal)).run s =
      ExceptT.bindCont (m := StateM Session) (fun a => pure (result a))
        ((w.run s.log).1.mapError .fault) { s with log := (w.run s.log).2 } := rfl
  rw [hrun]
  rcases w.run s.log with ⟨_ | _, _⟩ <;> rfl

/-- Work on the log that depends on the time. -/
lemma outcome_logging_now (w : Moment → Logging α) (result : α → Value × Journal) :
    Outcome.ofRun ((do
      let a ← do logging (w (← get).now)
      return result a : Acting (Value × Journal)).run s) = s.withLog result ((w s.now).run s.log) :=
  s.outcome_logging (w s.now) result

/-- A scope is opened after all names and values have been shown. -/
lemma call_init (pairs : List Value) :
    s.call (.init pairs) =
      if pairs.length % 2 == 1 then ⟨.error (.unpaired pairs.length), s, []⟩
      else match pairVariables pairs [] with
        | .ok t => ⟨.ok .null, { s with scopes := ⟨Table.merge [] t :: s.scopes.stack⟩ }, []⟩
        | .error fault => ⟨.error (.fault fault), s, []⟩ := by
  simp only [call, act, init]
  split_ifs
  · rfl
  · cases pairVariables pairs [] with
    | error fault => rfl
    | ok t => cases t <;> rfl

lemma call_deinit : s.call .deinit = s.withScopes (Scopes.leave.run s.scopes) :=
  s.outcome_scoping Scopes.leave

lemma call_setVariable (name value : Value) :
    s.call (.setVariable name value) =
      match value.variableText with
      | .ok text => s.withScopes ((Scopes.setVariable name (.text text)).run s.scopes)
      | .error fault => ⟨.error (.fault fault), s, []⟩ := by
  simp only [call, act, setVariable]
  cases value.variableText with
  | error fault => rfl
  | ok text => exact s.outcome_scoping _

/-- Variables are written all at once, after all of them have been read. -/
lemma call_setYamlVars (text : Value) :
    s.call (.setYamlVars text) =
      match readVariables text with
      | .ok t => s.withScopes ((Scopes.setVariables (.table t)).run s.scopes)
      | .error failure => ⟨.error failure, s, []⟩ := by
  simp only [call, act, setYamlVars]
  cases readVariables text with
  | error failure => rfl
  | ok t => exact s.outcome_scoping _

lemma call_initcmd (name : Value) (args : List Value) :
    s.call (.initcmd name args) =
      s.withLog (fun _ => (.bool true, []))
        ((LogChannel.trace s.now name (.tuple args)).run s.log) :=
  s.outcome_logging_now (fun now => LogChannel.trace now name (.tuple args)) _

lemma call_logOutput (level message : Value) :
    s.call (.logOutput level message) =
      s.withLog (fun _ => (.null, [])) ((LogChannel.emit s.now level message).run s.log) :=
  s.outcome_logging_now (fun now => LogChannel.emit now level message) _

lemma call_setLogLevel (level : Value) :
    s.call (.setLogLevel level) =
      s.withLog (fun r => (.int r.1.code, r.2)) ((LogChannel.setLevel level).run s.log) :=
  s.outcome_logging _ _

lemma call_macroCall (text : Value) :
    s.call (.macroCall text) = ⟨s.scopes.expand text, s, []⟩ := by
  have hrun : (act (.macroCall text)).run s =
      ExceptT.bindCont (m := StateM Session) (fun v => pure (v, [])) (s.scopes.expand text) s := rfl
  rw [call, hrun]
  cases s.scopes.expand text <;> rfl

end NodeScript.Session
