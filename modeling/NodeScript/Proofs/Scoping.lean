import NodeScript.Proofs.Balance

/-!
# Scopes of a session

A call of a session that fails leaves the session as it was: whatever can fail is done before the
first change. `Atomic` is work of this kind; it is made of work that changes nothing, followed by
work that cannot fail any more. A call inside a scope neither sees nor changes the scopes below, so
it does the same wherever the scope was opened; `Session.call_below` says so of a single call, and
`Session.after_below` of calls one after the other. So scopes are nested: calls that open a scope
and stay inside it give back the scopes that they found, below those that they leave open.
-/

namespace NodeScript

/-! ### Work that fails before it changes anything -/

section

variable {σ ε α β : Type} {w : ExceptT ε (StateM σ) α} {f : α → ExceptT ε (StateM σ) β}

/-- Work that leaves the state as it is, whether it fails or not. -/
def Unchanging (w : ExceptT ε (StateM σ) α) : Prop :=
  ∀ s, (w.run s).2 = s

/-- Work that leaves the state as it is if it fails. -/
def Atomic (w : ExceptT ε (StateM σ) α) : Prop :=
  ∀ s e, (w.run s).1 = .error e → (w.run s).2 = s

lemma Unchanging.atomic (h : Unchanging w) : Atomic w :=
  fun s _ _ => h s

lemma unchanging_pure (a : α) : Unchanging (pure a : ExceptT ε (StateM σ) α) :=
  fun _ => rfl

lemma unchanging_throw (e : ε) : Unchanging (throw e : ExceptT ε (StateM σ) α) :=
  fun _ => rfl

lemma unchanging_get : Unchanging (get : ExceptT ε (StateM σ) σ) :=
  fun _ => rfl

lemma unchanging_lift (r : Except ε α) : Unchanging (liftM r : ExceptT ε (StateM σ) α) :=
  fun _ => rfl

lemma unchanging_liftFault (r : Except Fault α) :
    Unchanging (liftM r : ExceptT Failure (StateM σ) α) :=
  fun _ => rfl

lemma atomic_modify (g : σ → σ) : Atomic (modify g : ExceptT ε (StateM σ) PUnit) := by
  intro s e h
  cases h

lemma atomic_set (t : σ) : Atomic (set t : ExceptT ε (StateM σ) PUnit) := by
  intro s e h
  cases h

/-- Work that changes nothing may come before work that fails only before it changes anything. -/
lemma Unchanging.bind (hw : Unchanging w) (hf : ∀ a, Atomic (f a)) : Atomic (w >>= f) := by
  intro s e h
  have hs := hw s
  rcases hres : w.run s with ⟨e' | a, s'⟩
  all_goals
    rw [hres] at hs
    obtain rfl : s' = s := hs
  · rw [run_bind_of_error hres]
  · rw [run_bind_of_ok hres] at h ⊢
    exact hf a s' e h

/-- The result may be changed afterwards. -/
lemma Atomic.bind_pure (hw : Atomic w) (g : α → β) : Atomic (w >>= fun a => pure (g a)) := by
  intro s e h
  have hs := hw s
  rcases hres : w.run s with ⟨e' | a, s'⟩
  · rw [hres] at hs
    rw [run_bind_of_error hres]
    exact hs e' rfl
  · rw [run_bind_of_ok hres] at h
    cases h

end

namespace Scopes

lemma atomic_enter (vars : Value) : Atomic (enter vars) :=
  (unchanging_liftFault _).bind fun _ => atomic_modify _

lemma atomic_leave : Atomic leave := by
  refine unchanging_get.bind fun s => ?_
  split
  · exact (unchanging_throw _).atomic
  · exact atomic_set _

lemma atomic_setVariable (name value : Value) : Atomic (setVariable name value) := by
  refine unchanging_get.bind fun s => ?_
  split
  · exact (unchanging_liftFault _).bind fun _ => (unchanging_throw _).atomic
  · exact (unchanging_liftFault _).bind fun _ => atomic_set _

/-- Entries of a table are written without a fault. -/
lemma atomic_setVariables_table (t : Table Value Value) : Atomic (setVariables (.table t)) := by
  refine unchanging_get.bind fun s => ?_
  split
  · exact (unchanging_throw _).atomic
  · exact (atomic_set _).bind_pure _

end Scopes

namespace LogChannel

lemma atomic_emit (now : Moment) (level message : Value) : Atomic (emit now level message) := by
  refine unchanging_get.bind fun c => (unchanging_lift _).bind fun line? => ?_
  split
  · exact (atomic_modify _).bind_pure _
  · exact (unchanging_pure _).atomic

lemma atomic_trace (now : Moment) (name args : Value) : Atomic (trace now name args) :=
  (unchanging_lift _).bind fun _ => (unchanging_lift _).bind fun _ => atomic_emit now _ _

lemma atomic_setLevel (v : Value) : Atomic (setLevel v) := by
  refine unchanging_get.bind fun c => (unchanging_lift _).bind fun level? => ?_
  split
  · exact (atomic_modify _).bind_pure _
  · exact (unchanging_pure _).atomic

end LogChannel

namespace Session

lemma atomic_scoping {α : Type} {w : Scoping α} (h : Atomic w) : Atomic (scoping w) := by
  intro s e hrun
  exact congrArg (fun scopes => { s with scopes }) (h s.scopes e hrun)

lemma atomic_logging {α : Type} {w : Logging α} (h : Atomic w) : Atomic (logging w) := by
  intro s e hrun
  have hfault : ∃ fault, (w.run s.log).1 = .error fault := by
    cases hres : (w.run s.log).1 with
    | error fault => exact ⟨fault, rfl⟩
    | ok a =>
      change (w.run s.log).1.mapError Failure.fault = .error e at hrun
      rw [hres] at hrun
      cases hrun
  obtain ⟨fault, hfault⟩ := hfault
  exact congrArg (fun log => { s with log }) (h s.log fault hfault)

lemma atomic_init (pairs : List Value) : Atomic (init pairs) := by
  rw [init]
  split_ifs
  · exact (unchanging_throw _).bind fun _ =>
      (unchanging_liftFault _).bind fun _ => atomic_scoping (Scopes.atomic_enter _)
  · exact (unchanging_liftFault _).bind fun _ => atomic_scoping (Scopes.atomic_enter _)

lemma atomic_act (c : Command) : Atomic (act c) := by
  cases c with
  | init pairs => exact (atomic_init pairs).bind_pure _
  | deinit => exact (atomic_scoping Scopes.atomic_leave).bind_pure _
  | initcmd name args =>
    exact (unchanging_get.bind fun _ => atomic_logging (LogChannel.atomic_trace _ _ _)).bind_pure _
  | logOutput level message =>
    exact (unchanging_get.bind fun _ => atomic_logging (LogChannel.atomic_emit _ _ _)).bind_pure _
  | macroCall text => exact (unchanging_get.bind fun _ => (unchanging_lift _).atomic).bind_pure _
  | setLogLevel level => exact (atomic_logging (LogChannel.atomic_setLevel level)).bind_pure _
  | setVariable name value =>
    exact ((unchanging_liftFault _).bind fun _ =>
      atomic_scoping (Scopes.atomic_setVariable name _)).bind_pure _
  | setYamlVars text =>
    exact ((unchanging_lift _).bind fun _ =>
      atomic_scoping (Scopes.atomic_setVariables_table _)).bind_pure _

/-- A call that fails leaves the session as it was: its scopes, its level and its lines. -/
theorem failed_call_changes_nothing {s : Session} {c : Command} {f : Failure}
    (h : (s.call c).result = .error f) : (s.call c).session = s := by
  have hatomic := atomic_act c s
  rw [call] at h ⊢
  rcases hres : (act c).run s with ⟨e | r, s'⟩
  · rw [hres] at hatomic
    exact hatomic e rfl
  · rw [hres] at h
    cases h

/-- A session with an open scope and a line in its queue. -/
def busy : Session where
  scopes := ⟨[[(.text "path", .text "/tmp")]]⟩
  log := ⟨.info, .text "%H:%M", ["[INFO] 03:04 started"], [], false⟩
  now := ⟨⟨2024, 1, 2⟩, 3, 4, 5, 0, none⟩
  sink := .journal

/-- Calls that fail after some of their work: at a name that lacks its value, at integers that are
too long, at a level that is no integer, at a name that cannot be a key, at a day that does not
exist. -/
def refused : List Command :=
  [.init [.text "path", .text "/home", .text "odd"],
   .init [.text "path", .text "/home", .text "size", .int Value.longInteger],
   .initcmd (.text "send") [.text "a", .int Value.longInteger],
   .logOutput (.int 2) (.list [.text "a", .int Value.longInteger]),
   .macroCall (.int 5),
   .setLogLevel (.real ⟨0x4004000000000000⟩),
   .setVariable (.list []) (.text "a"),
   .setVariable (.text "size") (.int Value.longInteger),
   .setYamlVars (.text "path: /home\nday: 2023-02-30")]

theorem refused_changes_nothing :
    (∀ c ∈ refused, (∃ f, (busy.call c).result = .error f) ∧ (busy.call c).session = busy) ∧
      (∃ f, (Compile.quiet.call .deinit).result = .error f) ∧
      (Compile.quiet.call .deinit).session = Compile.quiet := by
  have hfails : ∀ c ∈ refused, (busy.call c).result.isOk = false := by
    have hall : (refused.all fun c => !(busy.call c).result.isOk) = true := by decide +kernel
    simpa using hall
  refine ⟨fun c hc => ?_, ⟨_, rfl⟩, failed_call_changes_nothing rfl⟩
  cases hresult : (busy.call c).result with
  | ok v => have hc := hfails c hc; rw [hresult] at hc; cases hc
  | error f => exact ⟨⟨f, rfl⟩, failed_call_changes_nothing hresult⟩

end Session

namespace Scopes

/-! ### Scopes below others -/

lemma depth_leave {s s' : Scopes} (h : leave.run s = (.ok (), s')) : s'.depth + 1 = s.depth := by
  obtain ⟨stack⟩ := s
  cases stack with
  | nil => cases h
  | cons vars rest => cases h; rfl

lemma depth_setVariable (s : Scopes) (name value : Value) :
    ((setVariable name value).run s).2.depth = s.depth := by
  obtain ⟨stack⟩ := s
  rw [setVariable, run_get_bind]
  cases stack with
  | nil => cases name.shown <;> rfl
  | cons vars rest => cases name.checkKey <;> rfl

lemma depth_setVariables (s : Scopes) (t : Table Value Value) :
    ((setVariables (.table t)).run s).2.depth = s.depth := by
  obtain ⟨stack⟩ := s
  cases stack <;> rfl

/-- Scopes with others below them. -/
def below (s : Scopes) (base : List (Table Value Value)) : Scopes :=
  ⟨s.stack ++ base⟩

variable (base : List (Table Value Value)) {s : Scopes}

lemma depth_below (s : Scopes) : (s.below base).depth = s.depth + base.length :=
  List.length_append

/-- The work does the same whatever lies below the scopes. -/
def BlindTo {α : Type} (w : Scoping α) (s : Scopes) (base : List (Table Value Value)) : Prop :=
  w.run (s.below base) = ((w.run s).1, (w.run s).2.below base)

lemma leave_blindTo (h : s.stack ≠ []) : BlindTo leave s base := by
  obtain ⟨vars | ⟨vars, rest⟩⟩ := s
  · cases h rfl
  · rfl

lemma setVariable_blindTo (h : s.stack ≠ []) (name value : Value) :
    BlindTo (setVariable name value) s base := by
  obtain ⟨vars | ⟨vars, rest⟩⟩ := s
  · cases h rfl
  · rw [BlindTo, setVariable, run_get_bind, run_get_bind]
    cases name.checkKey <;> rfl

lemma setVariables_blindTo (h : s.stack ≠ []) (t : Table Value Value) :
    BlindTo (setVariables (.table t)) s base := by
  obtain ⟨vars | ⟨vars, rest⟩⟩ := s
  · cases h rfl
  · rfl

/-- Only the innermost scope is seen. -/
lemma expand_of_innermost? {vars : Table Value Value} (h : s.innermost? = some vars)
    (text : Value) : s.expand text = Placeholder.expand vars text := by
  obtain ⟨rest, hstack⟩ := List.head?_eq_some_iff.1 h
  rw [expand, hstack]

lemma expand_below (h : s.stack ≠ []) (text : Value) :
    (s.below base).expand text = s.expand text := by
  obtain ⟨vars, rest, hstack⟩ := List.exists_cons_of_ne_nil h
  simp only [expand, below, hstack, List.cons_append]

end Scopes

namespace Session

/-! ### Calls one after the other -/

/-- A session after some calls. -/
def after (s : Session) (cs : List Command) : Session :=
  cs.foldl (fun s c => (s.call c).session) s

/-- Whether a call opens a scope. -/
def opens (s : Session) : Command → Bool
  | .init pairs => (s.call (.init pairs)).result.isOk
  | _ => false

/-- Whether a call closes a scope. -/
def closes (s : Session) : Command → Bool
  | .deinit => (s.call .deinit).result.isOk
  | _ => false

/-- The number of scopes that some calls open. -/
def opened (s : Session) : List Command → Nat
  | [] => 0
  | c :: cs => (s.opens c).toNat + (s.call c).session.opened cs

/-- The number of scopes that some calls close. -/
def closed (s : Session) : List Command → Nat
  | [] => 0
  | c :: cs => (s.closes c).toNat + (s.call c).session.closed cs

lemma after_cons (s : Session) (c : Command) (cs : List Command) :
    s.after (c :: cs) = (s.call c).session.after cs := rfl

lemma withLog_scopes {α : Type} (s : Session) (result : α → Value × Journal)
    (r : Except Fault α × LogChannel) : (s.withLog result r).session.scopes = s.scopes := by
  rcases r with ⟨_ | _, _⟩ <;> rfl

lemma withScopes_scopes (s : Session) (r : Except Failure Unit × Scopes) :
    (s.withScopes r).session.scopes = r.2 := by
  rcases r with ⟨_ | _, _⟩ <;> rfl

/-- A call changes the number of open scopes by what it opens and closes. -/
lemma depth_call (s : Session) (c : Command) :
    (s.call c).session.scopes.depth + (s.closes c).toNat =
      s.scopes.depth + (s.opens c).toNat := by
  cases c with
  | init pairs =>
    simp only [opens, closes, call_init]
    split_ifs
    · rfl
    · cases pairVariables pairs [] <;> rfl
  | deinit =>
    simp only [opens, closes, call_deinit]
    rcases hleave : Scopes.leave.run s.scopes with ⟨failure | _, scopes⟩
    · have hsame := Scopes.atomic_leave s.scopes failure (by rw [hleave])
      rw [hleave] at hsame
      exact congrArg Scopes.depth hsame
    · exact Scopes.depth_leave hleave
  | initcmd name args => rw [call_initcmd, withLog_scopes]; rfl
  | logOutput level message => rw [call_logOutput, withLog_scopes]; rfl
  | macroCall text => rw [call_macroCall]; rfl
  | setLogLevel level => rw [call_setLogLevel, withLog_scopes]; rfl
  | setVariable name value =>
    rw [call_setVariable]
    cases value.variableText with
    | error fault => rfl
    | ok text => rw [withScopes_scopes, Scopes.depth_setVariable]; rfl
  | setYamlVars text =>
    rw [call_setYamlVars]
    cases readVariables text with
    | error failure => rfl
    | ok t => rw [withScopes_scopes, Scopes.depth_setVariables]; rfl

lemma depth_after (s : Session) (cs : List Command) :
    (s.after cs).scopes.depth + s.closed cs = s.scopes.depth + s.opened cs := by
  induction cs generalizing s with
  | nil => rfl
  | cons c cs ih =>
    have hc := s.depth_call c
    have hcs := ih (s.call c).session
    rw [after_cons, closed, opened]
    omega

/-! ### Scopes below those of a session -/

/-- A session with other scopes. -/
def on (s : Session) (stack : List (Table Value Value)) : Session :=
  { s with scopes := ⟨stack⟩ }

/-- A session with further scopes below its own. -/
def below (s : Session) (base : List (Table Value Value)) : Session :=
  { s with scopes := s.scopes.below base }

end Session

/-- The outcome of a call with further scopes below. -/
def Outcome.below (o : Outcome) (base : List (Table Value Value)) : Outcome :=
  { o with session := o.session.below base }

namespace Session

section

variable (base : List (Table Value Value)) (s : Session)

lemma withLog_below {α : Type} (result : α → Value × Journal) (r : Except Fault α × LogChannel) :
    (s.below base).withLog result r = (s.withLog result r).below base := by
  rcases r with ⟨_ | _, _⟩ <;> rfl

lemma withScopes_below {w : Scoping Unit} (h : Scopes.BlindTo w s.scopes base) :
    (s.below base).withScopes (w.run (s.below base).scopes) =
      (s.withScopes (w.run s.scopes)).below base := by
  change (s.below base).withScopes (w.run (s.scopes.below base)) = _
  rw [h]
  rcases w.run s.scopes with ⟨_ | _, _⟩ <;> rfl

lemma call_init_below (pairs : List Value) :
    (s.below base).call (.init pairs) = (s.call (.init pairs)).below base := by
  rw [call_init, call_init]
  split_ifs
  · rfl
  · cases pairVariables pairs [] <;> rfl

variable {s} (h : s.scopes.stack ≠ [])

include h

/-- A call inside a scope does the same whatever lies below. -/
lemma call_below (c : Command) : (s.below base).call c = (s.call c).below base := by
  cases c with
  | init pairs => exact s.call_init_below base pairs
  | deinit =>
    rw [call_deinit, call_deinit]
    exact s.withScopes_below base (Scopes.leave_blindTo base h)
  | initcmd name args =>
    rw [call_initcmd, call_initcmd]
    exact s.withLog_below base _ _
  | logOutput level message =>
    rw [call_logOutput, call_logOutput]
    exact s.withLog_below base _ _
  | macroCall text =>
    rw [call_macroCall, call_macroCall]
    change Outcome.mk ((s.scopes.below base).expand text) (s.below base) [] = _
    rw [Scopes.expand_below base h]
    rfl
  | setLogLevel level =>
    rw [call_setLogLevel, call_setLogLevel]
    exact s.withLog_below base _ _
  | setVariable name value =>
    rw [call_setVariable, call_setVariable]
    cases value.variableText with
    | error fault => rfl
    | ok text => exact s.withScopes_below base (Scopes.setVariable_blindTo base h name _)
  | setYamlVars text =>
    rw [call_setYamlVars, call_setYamlVars]
    cases readVariables text with
    | error failure => rfl
    | ok t => exact s.withScopes_below base (Scopes.setVariables_blindTo base h t)

end

/-- Calls that stay inside a scope do the same whatever lies below. -/
lemma after_below (base : List (Table Value Value)) {s : Session} {cs : List Command}
    (h : ∀ k < cs.length, (s.after (cs.take k)).scopes.stack ≠ []) :
    (s.below base).after cs = (s.after cs).below base := by
  induction cs generalizing s with
  | nil => rfl
  | cons c cs ih =>
    have hs : s.scopes.stack ≠ [] := h 0 (Nat.zero_lt_succ _)
    rw [after_cons, after_cons, call_below base hs]
    exact ih fun k hk => h (k + 1) (Nat.succ_lt_succ hk)

/-- Calls stay inside a scope if there are always more scopes open than those below it. -/
lemma stack_ne_nil_of_depth (base : List (Table Value Value)) {s : Session} {cs : List Command}
    (h : ∀ k < cs.length, base.length < ((s.below base).after (cs.take k)).scopes.depth) (k : Nat)
    (hk : k < cs.length) : (s.after (cs.take k)).scopes.stack ≠ [] := by
  induction k using Nat.strong_induction_on with
  | _ k ih =>
    have hbelow : (s.below base).after (cs.take k) = (s.after (cs.take k)).below base := by
      refine after_below base fun j hj => ?_
      rw [List.length_take_of_le hk.le] at hj
      rw [List.take_take, min_eq_left hj.le]
      exact ih j hj (hj.trans hk)
    have hdepth := h k hk
    rw [hbelow] at hdepth
    change base.length < ((s.after (cs.take k)).scopes.below base).depth at hdepth
    rw [Scopes.depth_below] at hdepth
    intro hnil
    rw [Scopes.depth, hnil] at hdepth
    simp at hdepth

/-! ### Nested scopes -/

/-- Calls that start with one that opens a scope, end with one that closes a scope, and in between
have always opened more scopes than they have closed. -/
structure Bracketed (s : Session) (cs : List Command) : Prop where
  first : ∃ pairs rest, cs = .init pairs :: rest ∧ s.opens (.init pairs) = true
  last : ∃ start, cs = start ++ [.deinit] ∧ (s.after start).closes .deinit = true
  inside : ∀ k < cs.length, 0 < k → s.closed (cs.take k) < s.opened (cs.take k)

namespace Bracketed

variable {s : Session} {cs : List Command} {k : Nat}

lemma depth_lt (h : s.Bracketed cs) (hk : k < cs.length) (hpos : 0 < k) :
    s.scopes.depth < (s.after (cs.take k)).scopes.depth := by
  have hdepth := s.depth_after (cs.take k)
  have hinside := h.inside k hk hpos
  omega

/-- The calls do the same on whatever scopes they start. -/
lemma after_on (h : s.Bracketed cs) (hk : k ≤ cs.length) (base : List (Table Value Value)) :
    (s.on base).after (cs.take k) = ((s.on []).after (cs.take k)).below base := by
  obtain ⟨pairs, rest, rfl, -⟩ := h.first
  cases k with
  | zero => rfl
  | succ k =>
    -- opening the first scope needs no scope; all that follows is done inside of it
    have hinit : ∀ base, ((s.on base).call (.init pairs)).session =
        ((s.on []).call (.init pairs)).session.below base :=
      fun base => congrArg Outcome.session ((s.on []).call_init_below base pairs)
    rw [List.take_succ_cons, after_cons, after_cons, hinit base]
    refine after_below base fun j hj => ?_
    rw [List.length_take, lt_min_iff] at hj
    rw [List.take_take, min_eq_left hj.1.le]
    refine stack_ne_nil_of_depth s.scopes.stack (fun i hi => ?_) j hj.2
    rw [← hinit s.scopes.stack]
    exact h.depth_lt (Nat.succ_lt_succ hi) i.succ_pos

/-- The scopes that the calls have opened and not closed lie on those that they found. -/
lemma exists_inner (h : s.Bracketed cs) (hk : k ≤ cs.length) :
    ∃ inner : List (Table Value Value),
      inner.length + s.closed (cs.take k) = s.opened (cs.take k) ∧
      (s.after (cs.take k)).scopes.stack = inner ++ s.scopes.stack ∧
      ∀ base, ((s.on base).after (cs.take k)).scopes.stack = inner ++ base := by
  have hstack : ∀ base, ((s.on base).after (cs.take k)).scopes.stack =
      ((s.on []).after (cs.take k)).scopes.stack ++ base := by
    intro base
    rw [h.after_on hk base]
    rfl
  refine ⟨_, ?_, hstack s.scopes.stack, hstack⟩
  have hdepth := s.depth_after (cs.take k)
  have hlength := congrArg List.length (hstack s.scopes.stack)
  rw [List.length_append] at hlength
  change (s.after (cs.take k)).scopes.depth = _ + s.scopes.depth at hlength
  omega

lemma scopes_after_eq_iff (h : s.Bracketed cs) :
    (s.after cs).scopes = s.scopes ↔ s.opened cs = s.closed cs := by
  obtain ⟨inner, hcount, hstack, -⟩ := h.exists_inner le_rfl
  rw [List.take_length] at hcount hstack
  constructor
  · intro hsame
    rw [hsame, eq_comm, List.append_left_eq_self] at hstack
    rw [hstack] at hcount
    exact hcount.symm.trans (Nat.zero_add _)
  · intro hequal
    have hnil : inner = [] := List.length_eq_zero_iff.1 (by omega)
    rw [hnil] at hstack
    exact congrArg Scopes.mk hstack

lemma exists_innermost (h : s.Bracketed cs) (hk : k < cs.length) (hpos : 0 < k) :
    ∃ vars, (s.after (cs.take k)).scopes.innermost? = some vars := by
  have hdepth := h.depth_lt hk hpos
  cases hstack : (s.after (cs.take k)).scopes.stack with
  | nil =>
    rw [Scopes.depth, Scopes.depth, hstack] at hdepth
    cases hdepth
  | cons vars rest => exact ⟨vars, by rw [Scopes.innermost?, hstack]; rfl⟩

end Bracketed

/-- Scopes are nested. All along, the scopes that some calls have opened and not closed lie on those
that the calls found, which stay as they were and do not matter for those above them; at the end
they are given back exactly if as many scopes were closed as opened. Meanwhile an expansion depends
on the innermost scope alone. -/
theorem scopes_nested {s : Session} {cs : List Command} (h : s.Bracketed cs) :
    (∀ k ≤ cs.length, ∃ inner : List (Table Value Value),
      inner.length + s.closed (cs.take k) = s.opened (cs.take k) ∧
      (s.after (cs.take k)).scopes.stack = inner ++ s.scopes.stack ∧
      ∀ base, ((s.on base).after (cs.take k)).scopes.stack = inner ++ base) ∧
    ((s.after cs).scopes = s.scopes ↔ s.opened cs = s.closed cs) ∧
    ∀ k < cs.length, 0 < k →
      ∃ vars, (s.after (cs.take k)).scopes.innermost? = some vars ∧
        ∀ t : Session, t.scopes.innermost? = some vars → ∀ text,
          (t.call (.macroCall text)).result =
            ((s.after (cs.take k)).call (.macroCall text)).result := by
  refine ⟨fun k hk => h.exists_inner hk, h.scopes_after_eq_iff, fun k hk hpos => ?_⟩
  obtain ⟨vars, hvars⟩ := h.exists_innermost hk hpos
  refine ⟨vars, hvars, fun t ht text => ?_⟩
  rw [call_macroCall, call_macroCall]
  calc t.scopes.expand text
    _ = Placeholder.expand vars text := Scopes.expand_of_innermost? ht text
    _ = (s.after (cs.take k)).scopes.expand text := (Scopes.expand_of_innermost? hvars text).symm

/-- Calls inside a scope, some of which fail. -/
def detour : List Command :=
  [.init [.text "path", .text "/home"], .init [.text "odd"],
    .setLogLevel (.real ⟨0x4004000000000000⟩), .setVariable (.text "user") (.int 7), .init [],
    .setVariable (.text "path") .null, .deinit, .macroCall (.text "path"), .deinit]

lemma detour_bracketed : busy.Bracketed detour where
  first := ⟨_, _, rfl, by decide +kernel⟩
  last := ⟨detour.dropLast, rfl, by decide +kernel⟩
  inside := by decide +kernel

theorem detour_gives_back :
    busy.Bracketed detour ∧ (busy.after detour).scopes = busy.scopes :=
  ⟨detour_bracketed, (scopes_nested detour_bracketed).2.1.2 (by decide +kernel)⟩

/-- A scope that is not closed is left over. -/
theorem unclosed_scope_left :
    Compile.quiet.Bracketed [.init [], .init [], .deinit] ∧
      (Compile.quiet.after [.init [], .init [], .deinit]).scopes ≠ Compile.quiet.scopes := by
  refine ⟨⟨⟨_, _, rfl, rfl⟩, ⟨[.init [], .init []], rfl, rfl⟩, by decide +kernel⟩, fun h => ?_⟩
  exact absurd (congrArg Scopes.depth h) (by decide)

end Session

end NodeScript
