import NodeScript.Proofs.Calls
import NodeScript.Proofs.Delivery
import NodeScript.Proofs.Execution

/-!
# Balanced executions

A program that was compiled leaves the scopes and the log level as it found them: each function
closes the scope that it opens and restores the level that it sets, so it returns with the scopes
and the level with which it was called, whatever it calls in between. No call ever finds too few
scopes.
-/

namespace NodeScript

/-- Whether a failure is one of the scopes. -/
def Failure.isScope : Failure → Bool
  | .noScopeToClose | .noScopeFor _ | .noScope | .unpaired _ => true
  | _ => false

/-- Whether a run ended with a failure of the scopes. -/
def Halt.isScope : Halt → Bool
  | .failure f => f.isScope
  | .tooDeep => false

/-- A function returned with the scopes and the level with which it was called. -/
def Return.Balanced (r : Return) : Prop :=
  r.after.scopes = r.before.scopes ∧ r.after.log.level = r.before.log.level

namespace Machine

/-- All functions that have returned were balanced. -/
def Sound (m : Machine) : Prop :=
  ∀ r ∈ m.returns, r.Balanced

/-- The machine is sound, with some scopes and some level. -/
structure At (stack : List (Table Value Value)) (level : LogLevel) (m : Machine) : Prop where
  scopes : m.session.scopes = ⟨stack⟩
  level : m.session.log.level = level
  sound : m.Sound

/-- The machine is inside one more scope. -/
def Inside (stack : List (Table Value Value)) (level : LogLevel) (m : Machine) : Prop :=
  ∃ vars, m.At (vars :: stack) level

end Machine

/-! ### What work ensures -/

section

variable {α β : Type} {P : Machine → Prop} {Q : α → Machine → Prop} {R : β → Machine → Prop}

/-- From a machine in `P` work comes to an end in `Q`, or stops in a sound machine without a failure
of the scopes. -/
def Ensures (P : Machine → Prop) (w : Running α) (Q : α → Machine → Prop) : Prop :=
  ∀ m, P m →
    (∀ a m', w.run m = (.ok a, m') → Q a m') ∧
    ∀ e m', w.run m = (.error e, m') → e.isScope = false ∧ m'.Sound

lemma ensures_pure {a : α} (h : ∀ m, P m → Q a m) : Ensures P (pure a) Q := by
  intro m hm
  constructor
  · rintro _ _ ⟨⟩
    exact h m hm
  · rintro _ _ ⟨⟩

lemma ensures_bind {w : Running α} {f : α → Running β} (hw : Ensures P w Q)
    (hf : ∀ a, Ensures (Q a) (f a) R) : Ensures P (w >>= f) R := by
  intro m hm
  obtain ⟨hok, herr⟩ := hw m hm
  rcases hres : w.run m with ⟨e | a, m₁⟩
  · rw [run_bind_of_error hres]
    constructor
    · rintro _ _ ⟨⟩
    · rintro _ _ ⟨⟩
      exact herr e m₁ hres
  · rw [run_bind_of_ok hres]
    exact hf a m₁ (hok a m₁ hres)

lemma Ensures.mono {w : Running α} {Q' : α → Machine → Prop} (hw : Ensures P w Q)
    (h : ∀ a m, Q a m → Q' a m) : Ensures P w Q' := by
  intro m hm
  obtain ⟨hok, herror⟩ := hw m hm
  exact ⟨fun a m' hrun => h a m' (hok a m' hrun), herror⟩

lemma ensures_throw {e : Halt} (he : e.isScope = false) (h : ∀ m, P m → m.Sound) :
    Ensures P (throw e : Running α) Q := by
  intro m hm
  constructor
  · rintro _ _ ⟨⟩
  · rintro _ _ ⟨⟩
    exact ⟨he, h m hm⟩

lemma ensures_get : Ensures P get fun m₀ m => m₀ = m ∧ P m := by
  intro m hm
  constructor
  · rintro _ _ ⟨⟩
    exact ⟨rfl, hm⟩
  · rintro _ _ ⟨⟩

lemma ensures_modify {g : Machine → Machine} {A : Machine → Prop} (h : ∀ m, P m → A (g m)) :
    Ensures P (modify g) fun _ => A := by
  intro m hm
  constructor
  · rintro _ _ ⟨⟩
    exact h m hm
  · rintro _ _ ⟨⟩

/-- A call of the session leaves the record as it is. -/
lemma ensures_act {c : Command} {Q : Value → Machine → Prop} (hsound : ∀ m, P m → m.Sound)
    (hcall : ∀ m, P m → (∃ f, (m.session.call c).result = .error f ∧ f.isScope = false) ∨
      ∃ v, (m.session.call c).result = .ok v ∧
        Q v { m with session := (m.session.call c).session }) :
    Ensures P (Machine.act c) Q := by
  refine ensures_bind ensures_get fun m m₀ hm => ?_
  obtain ⟨rfl, hm⟩ := hm
  have hset : Ensures (fun m' => m' = m)
      (modify fun _ => { m with session := (m.session.call c).session })
      fun _ m' => m' = { m with session := (m.session.call c).session } :=
    ensures_modify fun _ _ => rfl
  refine ensures_bind hset (fun _ m' hm' => ?_) m rfl
  obtain rfl := hm'
  obtain ⟨f, hresult, hf⟩ | ⟨v, hresult, hv⟩ := hcall m hm
  · rw [hresult]
    exact ensures_throw (e := .failure f) (P := Machine.Sound) hf (fun _ h => h) _ (hsound m hm)
  · rw [hresult]
    exact ensures_pure (P := Q v) (fun _ h => h) _ hv

end

/-! ### Calls of the session -/

namespace Placeholder

lemma expandPieces_error {trail : Trail} {resolve : String → Except Stop (Option Piece)}
    (hresolve : ∀ key stop, resolve key = .error stop → stop.1.isScope = false)
    (name : Option (List Piece)) (ps : List Piece) {stop : Stop}
    (h : expandPieces trail resolve name ps = .error stop) : stop.1.isScope = false := by
  fun_induction expandPieces trail resolve name ps with
  | case1 | case2 => cases h
  | case3 _ _ _ ih => exact ih h
  | case4 p rest hp ih =>
    obtain h | ⟨done, -, h⟩ := Except.bind_eq_error_iff.1 h
    · exact ih h
    · cases h
  | case5 name p rest hp hjoin =>
    cases h
    rfl
  | case6 name p rest hp key hjoin ihu ihk =>
    obtain h | ⟨found, -, h⟩ := Except.bind_eq_error_iff.1 h
    · exact hresolve _ _ h
    · cases found with
      | none =>
        obtain h | ⟨done, -, h⟩ := Except.bind_eq_error_iff.1 h
        · exact ihu h
        · cases h
      | some value =>
        obtain h | ⟨done, -, h⟩ := Except.bind_eq_error_iff.1 h
        · exact ihk h
        · cases h
  | case7 name p rest hp hlimit ih =>
    obtain h | ⟨done, -, h⟩ := Except.bind_eq_error_iff.1 h
    · exact ih h
    · cases h
  | case8 name p rest hp hlimit ih => exact ih h

lemma expandWith_error {trail : Trail} {resolve : String → Except Stop (Option Piece)}
    (hresolve : ∀ key stop, resolve key = .error stop → stop.1.isScope = false) {v : Value}
    {stop : Stop} (h : expandWith trail resolve v = .error stop) : stop.1.isScope = false := by
  rw [expandWith] at h
  split_ifs at h
  split at h
  · cases h
    rfl
  · split_ifs at h
    obtain h | ⟨done, -, h⟩ := Except.bind_eq_error_iff.1 h
    · exact expandPieces_error hresolve _ _ h
    · split at h <;> cases h
      rfl

lemma expandAt_error (values : Table Value Value) (room : Nat) (trail : Trail) {v : Value}
    {stop : Stop} (h : expandAt values room trail v = .error stop) : stop.1.isScope = false := by
  induction room generalizing trail v stop with
  | zero =>
    refine expandWith_error (fun key stop h => ?_) h
    split_ifs at h <;> cases h <;> rfl
  | succ room ih =>
    refine expandWith_error (fun key stop h => ?_) h
    split at h
    · cases h
    · split_ifs at h
      · cases h
        rfl
      · obtain h | ⟨done, -, h⟩ := Except.bind_eq_error_iff.1 h
        · exact ih _ h
        · cases h

/-- Expansion does not depend on open scopes. -/
lemma expand_error {values : Table Value Value} {v : Value} {f : Failure}
    (h : expand values v = .error f) : f.isScope = false := by
  rw [expand, expandFrom] at h
  cases hstop : expandAt values (depthLimit - List.length ([] : Trail)) [] v with
  | ok w => rw [hstop] at h; cases h
  | error stop =>
    rw [hstop] at h
    cases h
    exact expandAt_error values _ _ hstop

end Placeholder

namespace LogChannel

/-- A level that is no placeholder is set, and the one before it is given back. -/
lemma run_setLevel_code (c : LogChannel) {level : LogLevel} (hlevel : level ≠ .inherit) :
    (setLevel (.int level.code)).run c = (.ok (c.level, []), { c with level }) := by
  cases level <;> first | rfl | exact (hlevel rfl).elim

end LogChannel

lemma Scopes.expand_error {s : Scopes} {text : Value} {f : Failure}
    (h : s.expand text = .error f) : f.isScope = false := by
  rw [expand.eq_def] at h
  split at h
  · cases h
  · exact Placeholder.expand_error h

lemma Session.readVariables_error {text : Value} {f : Failure}
    (h : readVariables text = .error f) : f.isScope = false := by
  rw [readVariables.eq_def] at h
  split at h
  · split at h
    · cases h
      rfl
    · cases h
      rfl
    · split at h
      · next t _ =>
        cases ht : variableTexts t with
        | ok t' => rw [ht] at h; cases h
        | error fault => rw [ht] at h; cases h; rfl
      · cases h
        rfl
  · cases h
    rfl

section

variable {stack : List (Table Value Value)} {level : LogLevel}

lemma ensures_init {pairs : List Value} (heven : pairs.length % 2 = 0) :
    Ensures (Machine.At stack level) (Machine.act (.init pairs))
      fun _ => Machine.Inside stack level := by
  refine ensures_act (fun m hm => hm.sound) fun m hm => ?_
  rw [Session.call_init, heven, if_neg (by decide)]
  cases Session.pairVariables pairs [] with
  | error fault => exact .inl ⟨.fault fault, rfl, rfl⟩
  | ok t => exact .inr ⟨.null, rfl, _, by rw [hm.scopes], hm.level, hm.sound⟩

lemma ensures_deinit :
    Ensures (Machine.Inside stack level) (Machine.act .deinit)
      fun _ => Machine.At stack level := by
  refine ensures_act (fun m ⟨vars, hm⟩ => hm.sound) fun m ⟨vars, hm⟩ => .inr ⟨.null, ?_⟩
  rw [Session.call_deinit, hm.scopes]
  exact ⟨rfl, rfl, hm.level, hm.sound⟩

lemma ensures_initcmd {name : Value} {args : List Value} :
    Ensures (Machine.At stack level) (Machine.act (.initcmd name args))
      fun _ => Machine.At stack level := by
  refine ensures_act (fun m hm => hm.sound) fun m hm => ?_
  rw [Session.call_initcmd]
  obtain ⟨fault | b, h⟩ | ⟨line, h⟩ :=
    LogChannel.trace_cases m.session.log m.session.now name args <;> rw [h]
  · exact .inl ⟨.fault fault, rfl, rfl⟩
  · exact .inr ⟨.bool true, rfl, hm.scopes, hm.level, hm.sound⟩
  · exact .inr ⟨.bool true, rfl, hm.scopes, hm.level, hm.sound⟩

lemma ensures_setLogLevel {next : LogLevel} (hnext : next ≠ .inherit) :
    Ensures (Machine.At stack level) (Machine.act (.setLogLevel (.int next.code)))
      fun v m => v = .int level.code ∧ m.At stack next := by
  refine ensures_act (fun m hm => hm.sound) fun m hm => .inr ⟨.int level.code, ?_⟩
  rw [Session.call_setLogLevel, LogChannel.run_setLevel_code _ hnext, hm.level]
  exact ⟨rfl, rfl, hm.scopes, rfl, hm.sound⟩

lemma ensures_macroCall {text : Value} :
    Ensures (Machine.At stack level) (Machine.act (.macroCall text))
      fun _ => Machine.At stack level := by
  refine ensures_act (fun m hm => hm.sound) fun m hm => ?_
  rw [Session.call_macroCall]
  cases hexpand : m.session.scopes.expand text with
  | error f => exact .inl ⟨f, rfl, Scopes.expand_error hexpand⟩
  | ok v => exact .inr ⟨v, rfl, hm⟩

lemma ensures_setYamlVars {text : Value} :
    Ensures (Machine.Inside stack level) (Machine.act (.setYamlVars text))
      fun _ => Machine.Inside stack level := by
  refine ensures_act (fun m ⟨vars, hm⟩ => hm.sound) fun m ⟨vars, hm⟩ => ?_
  rw [Session.call_setYamlVars]
  cases hread : Session.readVariables text with
  | error f => exact .inl ⟨f, rfl, Session.readVariables_error hread⟩
  | ok t =>
    rw [hm.scopes]
    exact .inr ⟨.null, rfl, _, rfl, hm.level, hm.sound⟩

end

/-! ### Statements -/

/-- No function of a program has the name of a call of the session. -/
def Program.Apart (p : Program) : Prop :=
  ∀ f ∈ p.functions, f.id ∉ Command.names

/-- Each call of a program names one of its functions. -/
def Program.Closed (p : Program) : Prop :=
  ∀ c ∈ p.calls, ∃ f ∈ p.functions, f.id = c.function

/-- Functions that are called return with the scopes and the level that they found. -/
def Program.EntersBalanced (p : Program) (enter : FunctionBlock → List Value → Running Value) :
    Prop :=
  ∀ f ∈ p.functions, ∀ args stack level, level ≠ LogLevel.inherit →
    Ensures (Machine.At stack level) (enter f args) fun _ => Machine.At stack level

namespace Program

variable {p : Program} {eval : Frame → String → Value}
  {enter : FunctionBlock → List Value → Running Value} {frame : Frame}
  {stack : List (Table Value Value)} {level : LogLevel}

lemma invoke_command (hp : p.Apart) {name : String} {args : List Value} {c : Command}
    (hname : name ∈ Command.names) (hc : Command.ofArgs name args = .ok c) :
    p.invoke enter name args = Machine.act c := by
  have hnone : p.function? name = none := by
    refine List.find?_eq_none.2 fun f hf hid => hp f hf ?_
    rwa [beq_iff_eq.1 hid]
  rw [invoke, hnone, hc]

lemma ensures_operandValue (hp : p.Apart) (o : Operand) :
    Ensures (Machine.At stack level) (p.operandValue eval enter frame o)
      fun _ => Machine.At stack level := by
  cases o with
  | code | literal | constant => exact ensures_pure fun m hm => hm
  | expansion index =>
    rw [operandValue, invoke_command hp (by decide) rfl]
    exact ensures_macroCall

lemma ensures_operandValues (hp : p.Apart) (os : List Operand) :
    Ensures (Machine.At stack level) (os.mapM (p.operandValue eval enter frame))
      fun _ => Machine.At stack level := by
  induction os with
  | nil => exact ensures_pure fun m hm => hm
  | cons o os ih =>
    rw [List.mapM_cons]
    refine ensures_bind (ensures_operandValue hp o) fun _ => ?_
    exact ensures_bind ih fun _ => ensures_pure fun m hm => hm

lemma ensures_runCalls (hp : p.Apart) (henter : p.EntersBalanced enter)
    (hlevel : level ≠ .inherit) {cs : List Call}
    (hcs : ∀ c ∈ cs, ∃ f ∈ p.functions, f.id = c.function) :
    Ensures (Machine.At stack level) (p.runCalls eval enter frame cs)
      fun _ => Machine.At stack level := by
  induction cs with
  | nil => exact ensures_pure fun m hm => hm
  | cons c cs ih =>
    rw [runCalls]
    refine ensures_bind (ensures_operandValues hp c.args) fun args => ?_
    refine ensures_bind (Q := fun _ => Machine.At stack level) ?_ fun _ =>
      ih fun c hc => hcs c (List.mem_cons_of_mem _ hc)
    obtain ⟨f, hf⟩ : ∃ f, p.function? c.function = some f := by
      obtain ⟨f, hf, hid⟩ := hcs c List.mem_cons_self
      exact Option.isSome_iff_exists.1 (List.find?_isSome.2 ⟨f, hf, beq_iff_eq.2 hid⟩)
    rw [invoke, hf]
    exact henter f (List.mem_of_find?_eq_some hf) args stack level hlevel

/-- The variables stay as they are, and the machine comes to a state. -/
def Keeps (frame : Frame) (A : Machine → Prop) (frame' : Frame) (m : Machine) : Prop :=
  frame' = frame ∧ A m

section

variable {P A B : Machine → Prop} {R : Frame → Machine → Prop}

lemma ensures_invoke (hp : p.Apart) {name : String} {args : List Value} {c : Command}
    (hname : name ∈ Command.names) (hc : Command.ofArgs name args = .ok c)
    (hact : Ensures P (Machine.act c) fun _ => A) :
    Ensures P (do let _ ← p.invoke enter name args; return frame) (Keeps frame A) := by
  rw [invoke_command hp hname hc]
  exact ensures_bind hact fun _ => ensures_pure fun m hm => ⟨rfl, hm⟩

lemma ensures_steps_nil : Ensures A (p.steps eval enter frame []) (Keeps frame A) :=
  ensures_pure fun _ hm => ⟨rfl, hm⟩

/-- A statement that keeps the variables, and those after it. -/
lemma ensures_steps_cons {s : Statement} {ss : List Statement}
    (hs : Ensures P (p.step eval enter frame s) (Keeps frame A))
    (hss : Ensures A (p.steps eval enter frame ss) R) :
    Ensures P (p.steps eval enter frame (s :: ss)) R := by
  rw [steps, List.foldlM_cons]
  refine ensures_bind hs fun frame' m hm => ?_
  obtain ⟨rfl, hm⟩ := hm
  exact hss m hm

lemma ensures_steps_append {ss ts : List Statement}
    (hss : Ensures P (p.steps eval enter frame ss) (Keeps frame A))
    (hts : Ensures A (p.steps eval enter frame ts) R) :
    Ensures P (p.steps eval enter frame (ss ++ ts)) R := by
  rw [steps, List.foldlM_append]
  refine ensures_bind hss fun frame' m hm => ?_
  obtain ⟨rfl, hm⟩ := hm
  exact hts m hm

end

lemma ensures_trace (hp : p.Apart) (definition : Value) (names : List Value) :
    Ensures (Machine.At stack level) (p.step eval enter frame (.trace definition names))
      (Keeps frame (Machine.At stack level)) :=
  ensures_invoke hp (by decide) rfl ensures_initcmd

lemma ensures_openScope (hp : p.Apart) (names : List Value) :
    Ensures (Machine.At stack level) (p.step eval enter frame (.openScope names))
      (Keeps frame (Machine.Inside stack level)) := by
  exact ensures_invoke hp (by decide) rfl (ensures_init (by simp))

lemma ensures_load (hp : p.Apart) (predefined : Option Nat) :
    Ensures (Machine.Inside stack level) (p.steps eval enter frame (predefined.map .load).toList)
      (Keeps frame (Machine.Inside stack level)) := by
  cases predefined with
  | none => exact ensures_steps_nil
  | some index =>
    exact ensures_steps_cons (ensures_invoke hp (by decide) rfl ensures_setYamlVars)
      ensures_steps_nil

lemma ensures_closeScope (hp : p.Apart) :
    Ensures (Machine.Inside stack level) (p.step eval enter frame .closeScope)
      (Keeps frame (Machine.At stack level)) :=
  ensures_invoke hp (by decide) rfl ensures_deinit

section

variable {b : ScopeBlock} {f : FunctionBlock}

lemma ensures_calls (hp : p.Apart) (henter : p.EntersBalanced enter) (hlevel : level ≠ .inherit)
    {cs : List Call} (hcs : ∀ c ∈ cs, ∃ f ∈ p.functions, f.id = c.function) :
    Ensures (Machine.At stack level) (p.step eval enter frame (.calls cs))
      (Keeps frame (Machine.At stack level)) :=
  ensures_bind (ensures_runCalls hp henter hlevel hcs) fun _ => ensures_pure fun _ hm => ⟨rfl, hm⟩

/-- The calls in a scope find it open and leave it open. -/
lemma ensures_calls_inside (hp : p.Apart) (henter : p.EntersBalanced enter)
    (hlevel : level ≠ .inherit) {cs : List Call}
    (hcs : ∀ c ∈ cs, ∃ f ∈ p.functions, f.id = c.function) :
    Ensures (Machine.Inside stack level) (p.step eval enter frame (.calls cs))
      (Keeps frame (Machine.Inside stack level)) := by
  intro m ⟨vars, hm⟩
  exact (ensures_calls hp henter hlevel hcs).mono (fun _ _ h => ⟨h.1, vars, h.2⟩) m hm

lemma ensures_scope (hp : p.Apart) (henter : p.EntersBalanced enter) (hlevel : level ≠ .inherit)
    (hcs : ∀ c ∈ b.calls, ∃ f ∈ p.functions, f.id = c.function) :
    Ensures (Machine.At stack level) (p.steps eval enter frame b.statements)
      (Keeps frame (Machine.At stack level)) := by
  refine ensures_steps_append
    (ensures_steps_cons (ensures_openScope hp b.names) (ensures_load hp b.predefined)) ?_
  refine ensures_steps_cons (A := Machine.Inside stack level)
    (ensures_pure fun _ hm => ⟨rfl, hm⟩) ?_
  exact ensures_steps_cons (ensures_calls_inside hp henter hlevel hcs)
    (ensures_steps_cons (ensures_closeScope hp) ensures_steps_nil)

/-- The calls of a function name functions. -/
lemma Closed.function (hp : p.Closed) (hf : f ∈ p.functions) {c : Call}
    (hc : c ∈ Block.calls (.function f)) : ∃ g ∈ p.functions, g.id = c.function := by
  obtain ⟨b, hb, hbf⟩ := List.mem_filterMap.1 hf
  cases b with
  | source => cases hbf
  | function g =>
    cases hbf
    exact hp c (List.mem_append_left _ (List.mem_flatMap.2 ⟨_, hb, hc⟩))

lemma ensures_body (hp : p.Apart) (hclosed : p.Closed) (henter : p.EntersBalanced enter)
    (hlevel : level ≠ .inherit) (hf : f ∈ p.functions) :
    Ensures (Machine.At stack level) (p.steps eval enter frame f.body)
      (Keeps frame (Machine.At stack level)) := by
  have hcode : Ensures (Machine.At stack level) (p.step eval enter frame (.code f.code))
      (Keeps frame (Machine.At stack level)) :=
    ensures_calls hp henter hlevel fun c hc => hclosed.function hf (List.mem_append_left _ hc)
  refine ensures_steps_cons hcode ?_
  cases hscope : f.scope with
  | none => exact ensures_steps_nil
  | some b =>
    refine ensures_scope hp henter hlevel fun c hc => hclosed.function hf ?_
    rw [Block.calls, hscope]
    exact List.mem_append_right _ hc

/-- The level that is saved is the one that is restored, since nothing in between changes the
variables. -/
lemma ensures_leveled (hp : p.Apart) (hclosed : p.Closed) (henter : p.EntersBalanced enter)
    (hlevel : level ≠ .inherit) (hf : f ∈ p.functions) :
    Ensures (Machine.At stack level) (p.steps eval enter frame f.leveled)
      fun _ => Machine.At stack level := by
  rw [FunctionBlock.leveled]
  by_cases hown : f.logLevel = .inherit
  · rw [if_pos (beq_iff_eq.2 hown)]
    exact (ensures_body hp hclosed henter hlevel hf).mono fun _ _ h => h.2
  · rw [if_neg (fun h => hown (beq_iff_eq.1 h)), List.cons_append]
    refine ensures_bind (Q := fun frame' m => frame' = ("prevLog", .int level.code) :: frame ∧
      m.At stack f.logLevel) ?_ fun frame' m hm => ?_
    · rw [step, invoke_command hp (by decide) rfl]
      refine ensures_bind (ensures_setLogLevel hown) fun v => ensures_pure fun m hm => ?_
      exact ⟨by rw [hm.1], hm.2⟩
    · obtain ⟨rfl, hm⟩ := hm
      have hrestore : Ensures (Machine.At stack f.logLevel)
          (p.step eval enter (("prevLog", .int level.code) :: frame) .restoreLevel)
          (Keeps _ (Machine.At stack level)) :=
        ensures_invoke hp (by decide) rfl ((ensures_setLogLevel hlevel).mono fun _ _ h => h.2)
      have hrest := ensures_steps_append (ensures_body hp hclosed henter hown hf)
        (ensures_steps_cons hrestore ensures_steps_nil)
      exact hrest.mono (fun _ _ h => h.2) m hm

lemma ensures_function (hp : p.Apart) (hclosed : p.Closed) (henter : p.EntersBalanced enter)
    (hlevel : level ≠ .inherit) (hf : f ∈ p.functions) :
    Ensures (Machine.At stack level) (p.steps eval enter frame f.statements)
      fun _ => Machine.At stack level :=
  ensures_steps_cons (ensures_trace hp _ _) (ensures_leveled hp hclosed henter hlevel hf)

/-- Functions are balanced at every depth of calls: those that they call are. -/
lemma entersBalanced_enterFunction (hp : p.Apart) (hclosed : p.Closed) (depth : Nat) :
    p.EntersBalanced (p.enterFunction eval depth) := by
  induction depth with
  | zero => exact fun f _ args stack level _ => ensures_throw rfl fun m hm => hm.sound
  | succ depth ih =>
    intro f hf args stack level hlevel
    refine ensures_bind ensures_get fun m₀ m hm => ?_
    obtain ⟨rfl, hm⟩ := hm
    refine ensures_bind (ensures_function hp hclosed ih hlevel hf) (fun _ => ?_) m₀ hm
    refine ensures_bind (ensures_modify (A := Machine.At stack level) fun m' hm' => ?_)
      fun _ => ensures_pure fun _ h => h
    refine ⟨hm'.scopes, hm'.level, fun r hr => ?_⟩
    obtain hr | hr := List.mem_append.1 hr
    · exact hm'.sound r hr
    · obtain rfl := List.mem_singleton.1 hr
      exact ⟨hm'.scopes.trans hm.scopes.symm, hm'.level.trans hm.level.symm⟩

lemma ensures_declare (hp : p.Apart) (as : List Argument) :
    Ensures (Machine.At stack level) (p.steps eval enter frame (as.map .declare))
      fun _ => Machine.At stack level := by
  induction as generalizing frame with
  | nil => exact ensures_pure fun _ hm => hm
  | cons a as ih =>
    rw [List.map_cons, steps, List.foldlM_cons]
    refine ensures_bind (Q := fun _ => Machine.At stack level) ?_ fun _ => ih
    exact ensures_bind (ensures_operandValue hp a.operand) fun _ => ensures_pure fun _ hm => hm

/-- A run begins and ends without scopes. -/
lemma ensures_run (hp : p.Apart) (hclosed : p.Closed) (henter : p.EntersBalanced enter)
    (hlevel : p.run.logLevel ≠ .inherit) :
    Ensures (Machine.At [] level) (p.steps eval enter frame p.run.statements)
      fun _ => Machine.At [] p.run.logLevel := by
  have hset (frame : Frame) : Ensures (Machine.At [] level)
      (p.step eval enter frame (.setLevel p.run.logLevel))
      (Keeps frame (Machine.At [] p.run.logLevel)) :=
    ensures_invoke hp (by decide) rfl ((ensures_setLogLevel hlevel).mono fun _ _ h => h.2)
  have hcode (frame : Frame) : Ensures (Machine.Inside [] p.run.logLevel)
      (p.steps eval enter frame (if p.run.code.isEmpty then [] else [.text p.run.code]))
      (Keeps frame (Machine.Inside [] p.run.logLevel)) := by
    split_ifs
    · exact ensures_steps_nil
    · exact ensures_steps_cons (ensures_pure fun _ hm => ⟨rfl, hm⟩) ensures_steps_nil
  have hcalls : ∀ c ∈ p.run.calls, ∃ f ∈ p.functions, f.id = c.function :=
    fun c hc => hclosed c (List.mem_append_right _ hc)
  rw [RunBlock.statements, List.append_assoc, List.append_assoc, steps, List.foldlM_append]
  refine ensures_bind (ensures_declare hp _) fun frame => ?_
  refine ensures_steps_append
    (ensures_steps_cons (hset frame) (ensures_steps_cons (ensures_openScope hp [])
      (ensures_load hp p.run.predefined))) ?_
  refine ensures_steps_append (hcode frame) ?_
  exact (ensures_steps_cons (ensures_calls_inside hp henter hlevel hcalls)
    (ensures_steps_cons (ensures_closeScope hp) ensures_steps_nil)).mono fun _ _ h => h.2

end

end Program

/-! ### Compiled programs -/

namespace Compile

variable {h : Header} {defs : Table Value Definition} {root : Definition} {values : Value}
  {p : Program} {vs : List Visit}

/-- The calls of a compiled program name its functions. -/
lemma Traces.closed (ht : Traces h defs root values p vs) : p.Closed := by
  intro c hcall
  obtain ⟨s, s', hc, hnone, -⟩ := ht.compiles
  obtain ⟨v, hv, hmem⟩ := ht.exists_visit_of_call hcall
  obtain ⟨f, hf, hid⟩ | hid := (hc.fits v hv).function_of_call hmem
  · exact ⟨f, ht.mem_functions_iff.2 ⟨v, hv, hf⟩, hid⟩
  · obtain hid | ⟨w, hw, f, -, -, hf, hid⟩ := hc.linked hid
    · rw [hnone] at hid
      cases hid
    · exact ⟨f, ht.mem_functions_iff.2 ⟨w, hw, hf⟩, hid⟩

lemma Traces.logLevel_ne (ht : Traces h defs root values p vs) (hlevel : h.logLevel ≠ .inherit) :
    p.run.logLevel ≠ .inherit := by
  obtain ⟨_, _, _, _, _, _, _, -, -, -, -, rfl⟩ := ht
  by_cases hroot : root.logLevel = .inherit
  · rwa [if_pos (beq_iff_eq.2 hroot)]
  · rwa [if_neg (fun h => hroot (beq_iff_eq.1 h))]

/-- A compiled program, run in a session without scopes, never meets a failure of the scopes. Each
of its functions returns with the scopes and the level with which it was called, and a run that
comes to its end leaves no scope open. What is run are the statements of its text. -/
theorem execute_balanced (hp : (Draft.empty.perform (program h defs root values)).1 = .ok p)
    (hlevel : h.logLevel ≠ .inherit) (hnames : ∀ f ∈ p.functions, f.id ∉ Command.names)
    (eval : Frame → String → Value) (depth : Nat) {s : Session} (hs : s.scopes = .empty) :
    (∀ e, (p.execute eval depth s).1 = .error e → e.isScope = false) ∧
      (∀ r ∈ (p.execute eval depth s).2.returns, r.Balanced) ∧
      (∀ frame, (p.execute eval depth s).1 = .ok frame →
        (p.execute eval depth s).2.session.scopes.depth = 0) ∧
      (∀ f ∈ p.functions, f.render = f.source) ∧ p.run.render = p.run.source := by
  obtain ⟨vs, ht⟩ := exists_traces hp
  have hrun : Ensures (Machine.At [] s.log.level)
      (p.steps eval (p.enterFunction eval depth) [] p.run.statements)
      fun _ => Machine.At [] p.run.logLevel :=
    Program.ensures_run hnames ht.closed
      (Program.entersBalanced_enterFunction hnames ht.closed depth) (ht.logLevel_ne hlevel)
  have hstart : Machine.At [] s.log.level ⟨s, []⟩ := ⟨hs, rfl, by simp [Machine.Sound]⟩
  obtain ⟨hok, herror⟩ := hrun _ hstart
  have htext := And.intro (fun f (_ : f ∈ p.functions) => f.render_eq_source)
    p.run.render_eq_source
  rcases hresult : p.execute eval depth s with ⟨e | frame, m⟩
  · obtain ⟨he, hsound⟩ := herror e m hresult
    refine ⟨?_, hsound, ?_, htext⟩
    · rintro _ ⟨⟩
      exact he
    · rintro _ ⟨⟩
  · have hm := hok frame m hresult
    refine ⟨?_, hm.sound, fun _ _ => ?_, htext⟩
    · rintro _ ⟨⟩
    · exact congrArg Scopes.depth hm.scopes

/-- A definition with a level, a scope and variables of its own, and one that it uses. -/
def nestedDefs : Catalogue :=
  [("outer", {
      name := "outer"
      logLevel := .error
      code := "%body%"
      params := [{ name := "who" }]
      tree := [.mk "inner" false [("text", "hello #who# #greeting#")] []]
      langs := [("def", [("greeting", "good day")])] }),
    ("inner", { name := "inner", logLevel := .debug, params := [{ name := "text" }] })]

/-- A root whose only node uses both definitions. -/
def nestedRoot : Definition where
  name := "main"
  tree := [.mk "outer" false [("who", "you")] [.mk "inner" false [("text", "before")] []]]

/-- A session at its beginning. -/
def quiet : Session where
  scopes := .empty
  log := ⟨.info, .text "%H:%M", [], [], false⟩
  now := ⟨⟨2024, 1, 2⟩, 3, 4, 5, 0, none⟩
  sink := .journal

/-- The program of the root can be run to its end. -/
lemma nestedRoot_runs :
    (match (Draft.empty.perform (program .standard nestedDefs nestedRoot (.table []))).1 with
      | .ok p => p.functions.all (fun f => !Command.names.contains f.id) &&
          (p.execute (fun _ s => .text s) 3 quiet).1.isOk
      | .error _ => false) = true := by
  decide +kernel

theorem nestedRoot_balanced : ∃ p,
    (Draft.empty.perform (program .standard nestedDefs nestedRoot (.table []))).1 = .ok p ∧
      (∀ f ∈ p.functions, f.id ∉ Command.names) ∧
      (∃ frame, (p.execute (fun _ s => .text s) 3 quiet).1 = .ok frame) ∧
      (∀ e, (p.execute (fun _ s => .text s) 3 quiet).1 = .error e → e.isScope = false) ∧
      (∀ r ∈ (p.execute (fun _ s => .text s) 3 quiet).2.returns, r.Balanced) ∧
      (∀ frame, (p.execute (fun _ s => .text s) 3 quiet).1 = .ok frame →
        (p.execute (fun _ s => .text s) 3 quiet).2.session.scopes.depth = 0) ∧
      (∀ f ∈ p.functions, f.render = f.source) ∧ p.run.render = p.run.source := by
  have hruns := nestedRoot_runs
  cases hp : (Draft.empty.perform (program .standard nestedDefs nestedRoot (.table []))).1 with
  | error e => rw [hp] at hruns; cases hruns
  | ok p =>
    simp only [hp, Bool.and_eq_true, List.all_eq_true, Bool.not_eq_true',
      List.contains_eq_mem, decide_eq_false_iff_not] at hruns
    exact ⟨p, rfl, hruns.1, exists_ok_of_isOk hruns.2,
      execute_balanced hp (by decide) hruns.1 _ 3 rfl⟩

end Compile

end NodeScript
