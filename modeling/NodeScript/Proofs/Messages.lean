import NodeScript.Catalogue
import NodeScript.Proofs.Termination

/-!
# Message templates

The templates of messages come from the caller. One that cannot be filled in gives way to a built-in
template, so every failure has a message. The templates have no influence beyond that: two
compilations whose headers differ in their templates alone do the same, and where they fail they
fail alike, apart from the message that a definition is not found or that a parameter is required.

Two compilations are compared step by step. `Agrees` says that two pieces of work leave the same
state, with the same result or with failures that are alike; sequences of work that agrees agree.
-/

namespace NodeScript

/-! ### Messages -/

/-- Each template of a header can be filled in or is refused: none asks for more than can be
made. -/
def Header.Fills (h : Header) : Prop :=
  ∀ key fields t fault, h.template key = .ok t → Template.render fields t = .error fault →
    fault = .refused

namespace Header

variable {h : Header}

/-- A message can be made if the built-in one can. -/
lemma Fills.exists_message (hh : h.Fills) {key : Value} {fields : Table String Value}
    (hnames : reservedNames.any fields.hasKey = false)
    (hbuiltin : ∃ m, builtinMessage key fields = .ok m) : ∃ m, h.message key fields = .ok m := by
  rw [message, hnames, if_neg Bool.false_ne_true]
  cases htemplate : h.template key with
  | error f => exact hbuiltin
  | ok t =>
    cases hrender : Template.render fields t with
    | ok s => exact ⟨s, by simp only [hrender]⟩
    | error fault =>
      obtain rfl := hh key fields t fault htemplate hrender
      simpa only [hrender] using hbuiltin

lemma Fills.exists_open_message (hh : h.Fills) (name : Value) :
    ∃ m, h.message openKey [("name", name)] = .ok m :=
  hh.exists_message rfl ⟨_, rfl⟩

lemma Fills.exists_field_message (hh : h.Fills) (field script : Value) :
    ∃ m, h.message fieldKey [("field", field), ("script", script)] = .ok m :=
  hh.exists_message rfl ⟨_, rfl⟩

/-- Headers that differ in their messages alone. -/
structure Alike (h h' : Header) : Prop where
  lang : h'.lang = h.lang
  logLevel : h'.logLevel = h.logLevel
  left : h.Fills
  right : h'.Fills

end Header

/-! ### Outcomes that are alike -/

/-- Failures that differ in their messages alone, and only if a definition is not found or a
parameter is required. -/
inductive Failure.Alike : Failure → Failure → Prop
  | refl (e : Failure) : Alike e e
  | notFound (m m' : String) (name : Value) : Alike (.notFound m name) (.notFound m' name)
  | required (m m' : String) (field script param definition : Value) :
      Alike (.required m field script param definition) (.required m' field script param definition)

/-- The same result, or failures that are alike. -/
inductive SameOutcome {α : Type} : Except Failure α → Except Failure α → Prop
  | ok (a : α) : SameOutcome (.ok a) (.ok a)
  | error {e e' : Failure} (alike : e.Alike e') : SameOutcome (.error e) (.error e')

lemma SameOutcome.refl {α : Type} (r : Except Failure α) : SameOutcome r r := by
  cases r with
  | ok a => exact .ok a
  | error e => exact .error (.refl e)

lemma SameOutcome.bind {α β : Type} {r r' : Except Failure α} {f f' : α → Except Failure β}
    (hr : SameOutcome r r') (hf : ∀ a, SameOutcome (f a) (f' a)) :
    SameOutcome (r >>= f) (r' >>= f') := by
  cases hr with
  | ok a => exact hf a
  | error alike => exact .error alike

/-- Work that leaves the same state and comes to the same, apart from messages. -/
def Agrees {σ α : Type} (w w' : ExceptT Failure (StateM σ) α) : Prop :=
  ∀ s, SameOutcome (w.run s).1 (w'.run s).1 ∧ (w.run s).2 = (w'.run s).2

section

variable {σ α β : Type}

lemma Agrees.refl (w : ExceptT Failure (StateM σ) α) : Agrees w w :=
  fun _ => ⟨.refl _, rfl⟩

/-- Sequences agree if their parts do. -/
lemma Agrees.bind {w w' : ExceptT Failure (StateM σ) α}
    {f f' : α → ExceptT Failure (StateM σ) β} (hw : Agrees w w')
    (hf : ∀ a, Agrees (f a) (f' a)) : Agrees (w >>= f) (w' >>= f') := by
  intro s
  obtain ⟨hresult, hstate⟩ := hw s
  rcases hr : w.run s with ⟨r, s₁⟩
  rcases hr' : w'.run s with ⟨r', s₁'⟩
  rw [hr, hr'] at hresult hstate
  obtain rfl : s₁ = s₁' := hstate
  cases hresult with
  | ok a =>
    rw [run_bind_of_ok hr, run_bind_of_ok hr']
    exact hf a s₁
  | error alike =>
    rw [run_bind_of_error hr, run_bind_of_error hr']
    exact ⟨.error alike, rfl⟩

lemma Agrees.lift {r r' : Except Failure α} (hr : SameOutcome r r') :
    Agrees (liftM r : ExceptT Failure (StateM σ) α) (liftM r') :=
  fun _ => ⟨hr, rfl⟩

lemma Agrees.throw {e e' : Failure} (he : e.Alike e') :
    Agrees (throw e : ExceptT Failure (StateM σ) α) (throw e') :=
  fun _ => ⟨.error he, rfl⟩

lemma Agrees.mapM {γ : Type} {f f' : γ → ExceptT Failure (StateM σ) α}
    (hf : ∀ c, Agrees (f c) (f' c)) (cs : List γ) : Agrees (cs.mapM f) (cs.mapM f') := by
  induction cs with
  | nil => exact .refl _
  | cons c cs ih =>
    rw [List.mapM_cons, List.mapM_cons]
    exact (hf c).bind fun _ => ih.bind fun _ => .refl _

lemma Agrees.interning {w w' : Interning α} (hw : Agrees w w') :
    Agrees (Draft.interning w) (Draft.interning w') := by
  intro s
  obtain ⟨hresult, hstate⟩ := hw s.constants
  exact ⟨hresult, congrArg (fun c => ({ s with constants := c } : Draft)) hstate⟩

end

/-! ### Arguments -/

namespace Argument

variable {h h' : Header} {d : Definition} {p : ParamSpec}

lemma requiredFailure_alike (hh : h.Alike h') :
    (requiredFailure h d p).Alike (requiredFailure h' d p) := by
  rw [requiredFailure, requiredFailure, hh.lang]
  cases localizeTitle p.displayTitle d h.lang with
  | error e => exact .refl e
  | ok field =>
    cases localizeTitle d.displayTitle d h.lang with
    | error e => exact .refl e
    | ok script =>
      obtain ⟨m, hm⟩ := hh.left.exists_field_message field script
      obtain ⟨m', hm'⟩ := hh.right.exists_field_message field script
      simp only [bind, Except.bind, hm, hm']
      exact .required m m' field script p.name d.name

lemma textOrDefault_agrees (hh : h.Alike h') (s : String) :
    SameOutcome (textOrDefault h d p s) (textOrDefault h' d p s) := by
  rw [textOrDefault, textOrDefault]
  split_ifs
  · exact .refl _
  · exact .refl _
  · exact .error (requiredFailure_alike hh)
  · exact .refl _

lemma ofText_agrees (hh : h.Alike h') (raw : Value) (intern : Bool) :
    Agrees (ofText h d p raw intern) (ofText h' d p raw intern) :=
  (Agrees.lift (textOrDefault_agrees hh _)).bind fun _ => .refl _

lemma ofNumber_agrees (hh : h.Alike h') (raw : Value) :
    SameOutcome (ofNumber h d p raw) (ofNumber h' d p raw) :=
  (textOrDefault_agrees hh _).bind fun _ => .refl _

lemma ofList_agrees (hh : h.Alike h') (raw : Value) (intern : Bool) :
    Agrees (ofList h d p raw intern) (ofList h' d p raw intern) := by
  rw [ofList, ofList]
  cases listItems? raw with
  | some items => exact .refl _
  | none =>
    dsimp only
    split_ifs
    · exact (Agrees.throw (requiredFailure_alike hh)).bind fun _ => .refl _
    · exact .refl _

lemma ofValue_agrees (hh : h.Alike h') (raw : Value) (intern : Bool) :
    Agrees (ofValue h d p raw intern) (ofValue h' d p raw intern) := by
  rw [ofValue, ofValue]
  cases p.kind with
  | checkbox | select => exact .refl _
  | textarea | singleText => exact ofText_agrees hh raw intern
  | number => exact .lift (ofNumber_agrees hh raw)
  | list => exact ofList_agrees hh raw intern

lemma listOfValues_agrees (hh : h.Alike h') (values : Value) (intern : Bool) :
    Agrees (listOfValues h d values intern) (listOfValues h' d values intern) :=
  Agrees.mapM (fun _ => (Agrees.refl _).bind fun raw => ofValue_agrees hh raw intern) d.params

end Argument

/-! ### Compilations -/

namespace Compile

variable {h h' : Header} {defs : Catalogue} {tree tree' : List Node → Drafting (List Call)}

lemma resolve_agrees (hh : h.Alike h') (name : Value) :
    SameOutcome (resolve h defs name) (resolve h' defs name) := by
  rw [resolve, resolve]
  refine (SameOutcome.refl _).bind fun _ => ?_
  cases Table.get? defs name with
  | some d => exact .refl _
  | none =>
    obtain ⟨m, hm⟩ := hh.left.exists_open_message name
    obtain ⟨m', hm'⟩ := hh.right.exists_open_message name
    simp only [hm, hm']
    exact .error (.notFound m m' name)

lemma emitFunction_agrees (hh : h.Alike h') (ht : ∀ ns, Agrees (tree ns) (tree' ns))
    (d : Definition) (id : String) (args : List Argument) (calls : List Call) :
    Agrees (emitFunction h tree d id args calls) (emitFunction h' tree' d id args calls) := by
  rw [emitFunction, emitFunction, hh.lang]
  refine (Agrees.refl _).bind fun code => ?_
  dsimp only
  split_ifs
  · exact .refl _
  · exact (Agrees.refl _).bind fun _ => (ht d.tree).bind fun _ => .refl _

lemma nodeWith_agrees (hh : h.Alike h') (ht : ∀ ns, Agrees (tree ns) (tree' ns))
    {below below' : Drafting (List Call)} (hbelow : Agrees below below') (n : Node) :
    Agrees (nodeWith h defs below tree n) (nodeWith h' defs below' tree' n) := by
  obtain ⟨name, disabled, values, children⟩ := n
  rw [nodeWith, nodeWith]
  split_ifs
  · exact .refl _
  refine (Agrees.lift (resolve_agrees hh name)).bind fun d => ?_
  refine (Argument.listOfValues_agrees hh _ true).interning.bind fun args => ?_
  unfold useWith
  split_ifs
  · split
    · exact hbelow.bind fun _ => .refl _
    · exact .refl _
  · refine (Agrees.refl _).bind fun s => ?_
    split
    · exact .refl _
    · refine (Agrees.refl _).bind fun id => hbelow.bind fun calls => ?_
      exact (emitFunction_agrees hh ht d id args calls).bind fun _ => .refl _

mutual

lemma node_agrees (hh : h.Alike h') (ht : ∀ ns, Agrees (tree ns) (tree' ns)) (n : Node) :
    Agrees (node h defs tree n) (node h' defs tree' n) := by
  match n with
  | .mk name disabled values children =>
    rw [node, node]
    exact nodeWith_agrees hh ht (nodes_agrees hh ht children) _
termination_by structural n

lemma nodes_agrees (hh : h.Alike h') (ht : ∀ ns, Agrees (tree ns) (tree' ns)) (ns : List Node) :
    Agrees (nodes h defs tree ns) (nodes h' defs tree' ns) := by
  match ns with
  | [] => exact .refl _
  | n :: ns =>
    rw [nodes, nodes]
    exact (node_agrees hh ht n).bind fun _ => (nodes_agrees hh ht ns).bind fun _ => .refl _
termination_by structural ns

end

lemma compileTree_agrees (hh : h.Alike h') (depth : Nat) (ns : List Node) :
    Agrees (compileTree h defs depth ns) (compileTree h' defs depth ns) := by
  induction depth generalizing ns with
  | zero => exact .refl _
  | succ depth ih => exact nodes_agrees hh ih ns

lemma program_agrees (hh : h.Alike h') (root : Definition) (values : Value) :
    Agrees (program h defs root values) (program h' defs root values) := by
  rw [program, program, programWith, programWith, hh.lang, hh.logLevel]
  refine (Argument.listOfValues_agrees hh values false).interning.bind fun params => ?_
  refine (Agrees.refl _).bind fun code => (Agrees.refl _).bind fun predefined => ?_
  exact (compileTree_agrees hh _ root.tree).bind fun _ => .refl _

end Compile

/-! ### Templates without specifications -/

namespace Template

/-- Whether a piece of a template is no field with a specification. -/
def Piece.isPlain : Piece → Bool
  | .field _ _ spec => spec.isEmpty
  | .char _ | .malformed => true

/-- Whether no field of a template has a specification. -/
def isPlain (t : String) : Bool :=
  (pieces t.toList).all Piece.isPlain

lemma refused_of_demand {α : Type} {a : Option α} {fault : TemplateFault}
    (h : demand a = .error fault) : fault = .refused := by
  cases a with
  | none => exact (Except.error.inj h).symm
  | some a => cases h

/-- A template whose fields have no specifications is filled in or refused. -/
lemma refused_of_isPlain {fields : Table String Value} {t : String} {fault : TemplateFault}
    (ht : isPlain t = true) (h : render fields t = .error fault) : fault = .refused := by
  have hnested : renderNested fields 2 t.toList = .error fault := by
    rw [render] at h
    cases hr : renderNested fields 2 t.toList with
    | ok cs => rw [hr] at h; cases h
    | error fault' => rw [hr] at h; cases h; rfl
  rw [renderNested] at hnested
  obtain hparts | ⟨parts, -, hparts⟩ := Except.bind_eq_error_iff.1 hnested
  swap; · cases hparts
  obtain ⟨piece, hpiece, h⟩ := mapM_eq_error hparts
  cases piece with
  | char c => cases h
  | malformed => exact (Except.error.inj h).symm
  | field path conversion spec =>
    obtain rfl : spec = [] := List.isEmpty_iff.1 (List.all_eq_true.1 ht _ hpiece)
    obtain h | ⟨target, -, h⟩ := Except.bind_eq_error_iff.1 h
    · exact refused_of_demand h
    · obtain h | ⟨converted, -, h⟩ := Except.bind_eq_error_iff.1 h
      · exact refused_of_demand h
      · cases h

end Template

lemma Header.isPlain_of_builtinTemplate {key : Value} {t : String}
    (ht : builtinTemplate key = .ok t) : Template.isPlain t = true := by
  obtain ⟨-, -, ht⟩ := Except.bind_eq_ok_iff.1 ht
  split at ht
  · split at ht
    · next hget =>
      cases ht
      simp only [builtinMessages, Table.get?] at hget
      split_ifs at hget
      · cases hget
        decide +kernel
      · cases hget
        decide +kernel
    · cases ht
  · cases ht

/-- A header fills its templates if none of them has a field with a specification. -/
lemma Header.fills_of_isPlain {h : Header}
    (hh : ∀ e ∈ h.messages, Template.isPlain e.2.render = true) : h.Fills := by
  intro key fields t fault ht hfault
  refine Template.refused_of_isPlain ?_ hfault
  obtain ⟨-, -, ht⟩ := Except.bind_eq_ok_iff.1 ht
  cases hget : h.messages.get? key with
  | none =>
    rw [hget] at ht
    exact isPlain_of_builtinTemplate ht
  | some v =>
    rw [hget] at ht
    dsimp only [Option.getD_some] at ht
    split_ifs at ht
    · cases ht
      obtain ⟨k, hmem, -⟩ := Table.exists_mem_of_get? hget
      exact hh _ hmem
    · exact isPlain_of_builtinTemplate ht

/-! ### Messages and nothing else -/

namespace Compile

/-- The templates of a header have no influence on a compilation beyond messages: with headers that
differ in their templates alone, a root becomes the same program in the same way, or the failures
are alike. -/
theorem messages_only {h h' : Header} (hlang : h'.lang = h.lang) (hlevel : h'.logLevel = h.logLevel)
    (hfills : h.Fills) (hfills' : h'.Fills) (defs : Catalogue) (root : Definition)
    (values : Value) :
    SameOutcome (Draft.empty.perform (program h defs root values)).1
        (Draft.empty.perform (program h' defs root values)).1 ∧
      (Draft.empty.perform (program h defs root values)).2 =
        (Draft.empty.perform (program h' defs root values)).2 := by
  obtain ⟨hresult, hdraft⟩ :=
    program_agrees ⟨hlang, hlevel, hfills, hfills'⟩ root values Draft.empty
  exact ⟨hresult, congrArg (fun d : Draft => (d, d.constants.journal)) hdraft⟩

/-- A header whose templates cannot be filled in: one refers to a position, the other is not
closed. -/
def brokenHeader : Header :=
  { Header.standard with
    messages := [("errfield", "Field \x7b0\x7d is required"), ("erropen", "Script \x7bname")] }

/-- A header with templates of its own, one of which refers to a field that is not there. -/
def terseHeader : Header :=
  { Header.standard with
    messages := [("errfield", "\x7bscript\x7d: \x7bfield\x7d?"), ("erropen", "\x7bfile\x7d")] }

/-- A definition with a parameter that is required. -/
def form : Catalogue :=
  [("ask", { name := "ask", params := [{ name := "text", options := { required := true } }] })]

/-- A root that gives no value for the parameter. -/
def formRoot : Definition where
  name := "main"
  tree := [.mk "ask" false [] []]

/-- The message of the failure of a compilation. -/
def failureMessage (h : Header) : Option String :=
  match (Draft.empty.perform (program h form formRoot (.table []))).1 with
  | .ok _ => none
  | .error e => some e.message

theorem form_messages_only :
    terseHeader.lang = brokenHeader.lang ∧ terseHeader.logLevel = brokenHeader.logLevel ∧
    brokenHeader.Fills ∧ terseHeader.Fills ∧
    failureMessage brokenHeader = some "Field 'text' in 'ask' is required" ∧
    failureMessage terseHeader = some "ask: text?" ∧
    SameOutcome (Draft.empty.perform (program brokenHeader form formRoot (.table []))).1
      (Draft.empty.perform (program terseHeader form formRoot (.table []))).1 := by
  have hlang : terseHeader.lang = brokenHeader.lang := rfl
  have hlevel : terseHeader.logLevel = brokenHeader.logLevel := rfl
  have hbroken : brokenHeader.Fills := Header.fills_of_isPlain (by decide +kernel)
  have hterse : terseHeader.Fills := Header.fills_of_isPlain (by decide +kernel)
  exact ⟨hlang, hlevel, hbroken, hterse, by decide +kernel, by decide +kernel,
    (messages_only hlang hlevel hbroken hterse form formRoot (.table [])).1⟩

end Compile

end NodeScript
