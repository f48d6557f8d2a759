import NodeScript.Proofs.Calls
import NodeScript.Proofs.Linking
import NodeScript.Proofs.Writing

/-!
# What operands stand for

A text of the user goes into the constants of the program, and the call gets a reference to it. The
reference is expanded at run time only if the text holds a sigil. This is no difference to the
running program: a text without sigils expands to itself, in every scope. The position of a constant
is given out while the program is under construction; constants are only added at the end, so it
still is the position of that text in the finished program.
-/

namespace NodeScript

/-! ### Expansion of a text without sigils -/

namespace Placeholder

lemma expandWith_of_not_mem {trail : Trail} {resolve : String → Except Stop (Option Piece)}
    {s : String} (hs : sigil ∉ s.toList) : expandWith trail resolve (.text s) = .ok (.text s) := by
  have hpieces : (s.toList.map fun c => some [c]).contains Piece.sigil = false := by
    rw [List.contains_eq_mem, decide_eq_false_iff_not, List.mem_map]
    rintro ⟨c, hc, heq⟩
    obtain rfl : c = sigil := by simpa [Piece.sigil] using heq
    exact hs hc
  rw [expandWith]
  split_ifs with hempty
  · rfl
  · simp only [pieces?, hpieces, Bool.not_false, if_true]

lemma expand_of_not_mem {values : Table Value Value} {s : String} (hs : sigil ∉ s.toList) :
    expand values (.text s) = .ok (.text s) := by
  have hat : ∀ room trail, expandAt values room trail (.text s) = .ok (.text s) := by
    intro room trail
    cases room with
    | zero => exact expandWith_of_not_mem hs
    | succ room => exact expandWith_of_not_mem hs
  rw [expand, expandFrom, hat]
  rfl

end Placeholder

lemma Scopes.expand_of_not_mem {scopes : Scopes} {s : String}
    (hs : Placeholder.sigil ∉ s.toList) : scopes.expand (.text s) = .ok (.text s) := by
  rw [expand]
  split
  · rfl
  · exact Placeholder.expand_of_not_mem hs

/-! ### Values of operands -/

/-- The value of an operand that refers to a constant, in a running program. -/
def Operand.value? (constants : List String) (s : Session) :
    Operand → Option (Except Failure Value)
  | .constant i => constants[i]?.map fun t => .ok (.text t)
  | .expansion i => constants[i]?.map fun t => (s.call (.macroCall (.text t))).result
  | .code _ | .literal _ => none

/-- An operand stands for a text that the user wrote: it is a reference to a constant, expanded or
not, and its value is the expansion of the text whatever the session. -/
def Operand.Expands (constants : List String) (t : String) (o : Operand) : Prop :=
  (∃ i < constants.length, o.render = StringTable.reference i ∨
    o.render = "macro(" ++ StringTable.reference i ++ ")") ∧
  ∀ s : Session, o.value? constants s = some (s.scopes.expand (.text t))

/-- An operand is a reference to a constant that is a given text. -/
def Operand.IsConstant (constants : List String) (t : String) (o : Operand) : Prop :=
  ∃ i, o = .constant i ∧ constants[i]? = some t

namespace Argument

/-- The value that a node gives for a parameter. -/
def given (n : Node) (p : ParamSpec) : Value :=
  (Table.get? n.values p.name).getD .null

/-- The text for a parameter: what is given, or the default where that is empty. -/
def written (p : ParamSpec) (raw : Value) : String :=
  if raw.normalized.isEmpty then p.options.default else raw.normalized

/-- The text for a list. -/
def listText? (raw : Value) : Option String :=
  match listItems? raw with
  | some items => (Json.write .plain (.list items)).toOption
  | none => some "[]"

/-- An argument means what a node gives for a parameter. -/
structure Means (constants : List String) (raw : Value) (p : ParamSpec) (a : Argument) : Prop where
  text : isText p.kind = true → a.operand.Expands constants (written p raw)
  list : p.kind = .list → ∃ t, listText? raw = some t ∧ a.operand.IsConstant constants t
  select : p.kind = .select → p.options.type = "" → a.operand.IsConstant constants raw.normalized

end Argument

/-! ### Constants that are added keep the meaning -/

section Mono

variable {constants constants' : List String}

lemma getElem?_of_isPrefix (hc : constants <+: constants') {i : Nat} {t : String}
    (ht : constants[i]? = some t) : constants'[i]? = some t := by
  obtain ⟨more, rfl⟩ := hc
  exact List.getElem?_append_left (List.getElem?_eq_some_iff.1 ht).1 ▸ ht

lemma Operand.value?_mono (hc : constants <+: constants') {s : Session} {o : Operand}
    {v : Except Failure Value} (hv : o.value? constants s = some v) :
    o.value? constants' s = some v := by
  cases o with
  | code | literal => cases hv
  | constant i | expansion i =>
    obtain ⟨t, ht, rfl⟩ := Option.map_eq_some_iff.1 hv
    exact Option.map_eq_some_iff.2 ⟨t, getElem?_of_isPrefix hc ht, rfl⟩

lemma Operand.Expands.mono (hc : constants <+: constants') {t : String} {o : Operand}
    (ho : o.Expands constants t) : o.Expands constants' t := by
  obtain ⟨⟨i, hi, hrender⟩, hvalue⟩ := ho
  exact ⟨⟨i, hi.trans_le hc.length_le, hrender⟩, fun s => value?_mono hc (hvalue s)⟩

lemma Operand.IsConstant.mono (hc : constants <+: constants') {t : String} {o : Operand}
    (ho : o.IsConstant constants t) : o.IsConstant constants' t := by
  obtain ⟨i, rfl, hi⟩ := ho
  exact ⟨i, rfl, getElem?_of_isPrefix hc hi⟩

lemma Argument.Means.mono (hc : constants <+: constants') {raw : Value} {p : ParamSpec}
    {a : Argument} (ha : a.Means constants raw p) : a.Means constants' raw p where
  text hk := (ha.text hk).mono hc
  list hk := by
    obtain ⟨t, ht, hconstant⟩ := ha.list hk
    exact ⟨t, ht, hconstant.mono hc⟩
  select hk htype := (ha.select hk htype).mono hc

end Mono

/-! ### The arguments of a use -/

namespace Argument

variable {h : Header} {d : Definition} {p : ParamSpec} {raw : Value} {c c' : Constants}
  {a : Argument}

lemma eq_written_of_textOrDefault {t : String}
    (ht : textOrDefault h d p raw.normalized = .ok t) : t = written p raw := by
  rw [textOrDefault] at ht
  rw [written]
  split_ifs at ht ⊢ <;> simp_all

/-- A text with a sigil becomes an expansion, any other text a constant. -/
lemma expands_of_ofText (hd : d.isSourceCode = false) (ha : Yields (ofText h d p raw true) c a c') :
    a.operand.Expands c'.texts (written p raw) := by
  simp only [ofText, ofPlain, yields_bind_iff, yields_liftFailure_iff, hd, Bool.false_eq_true,
    if_false] at ha
  obtain ⟨t, _, ⟨ht, rfl⟩, o, c₁, ho, ha⟩ := ha
  rw [← eq_written_of_textOrDefault ht]
  obtain ⟨i, rfl, hi⟩ := (yields_textOperand ho).2 rfl
  have hlt := (List.getElem?_eq_some_iff.1 hi).1
  simp only at ha
  split_ifs at ha with hsigil
  · obtain ⟨rfl, rfl⟩ := yields_pure_iff.1 ha
    refine ⟨⟨i, hlt, .inr rfl⟩, fun s => ?_⟩
    simp only [Operand.value?, hi, Option.map_some, Session.call_macroCall]
  · obtain ⟨rfl, rfl⟩ := yields_pure_iff.1 ha
    refine ⟨⟨i, hlt, .inl rfl⟩, fun s => ?_⟩
    rw [Scopes.expand_of_not_mem (by simpa using hsigil)]
    simp only [Operand.value?, hi, Option.map_some]

lemma isConstant_of_ofSelect (htype : p.options.type = "")
    (ha : Yields (ofSelect p raw true) c a c') :
    a.operand.IsConstant c'.texts raw.normalized := by
  have hempty : p.options.type.isEmpty = true := by rw [htype]; rfl
  simp only [ofSelect, hempty, Bool.not_true, Bool.false_eq_true, if_false, yields_bind_iff,
    yields_pure_iff] at ha
  obtain ⟨o, c₁, ho, rfl, rfl⟩ := ha
  exact (yields_textOperand ho).2 rfl

/-- The argument for a list is made of the text of the list. -/
lemma textOperand_of_ofList {intern : Bool} {room : Option Nat}
    (ha : Yields (ofList h d p raw intern room) c a c') :
    ∃ t o, listText? raw = some t ∧ Yields (textOperand intern t) c o c' ∧
      a = ⟨p.name, "str", o⟩ := by
  rw [ofList] at ha
  rw [listText?]
  cases hitems : listItems? raw with
  | some items =>
    rw [hitems] at ha
    cases hwrite : Json.write .plain (.list items) room with
    | ok t =>
      simp only [hwrite, yields_bind_iff, yields_pure_iff] at ha
      obtain ⟨_, _, ⟨rfl, rfl⟩, o, c₁, ho, rfl, rfl⟩ := ha
      exact ⟨_, o, by simp only [Json.write_eq_ok hwrite]; rfl, ho, rfl⟩
    | error cause =>
      simp only [hwrite, yields_bind_iff, yields_throw_iff, false_and, exists_false] at ha
  | none =>
    simp only [hitems] at ha
    split_ifs at ha
    · simp only [yields_bind_iff, yields_throw_iff, false_and, exists_false] at ha
    · simp only [yields_bind_iff, yields_pure_iff] at ha
      obtain ⟨_, _, ⟨rfl, rfl⟩, o, c₁, ho, rfl, rfl⟩ := ha
      exact ⟨_, o, rfl, ho, rfl⟩

lemma isConstant_of_ofList (ha : Yields (ofList h d p raw true) c a c') :
    ∃ t, listText? raw = some t ∧ a.operand.IsConstant c'.texts t := by
  obtain ⟨t, o, ht, ho, rfl⟩ := textOperand_of_ofList ha
  exact ⟨t, ht, (yields_textOperand ho).2 rfl⟩

lemma means_of_ofValue (hd : d.isSourceCode = false)
    (ha : Yields (ofValue h d p raw true) c a c') : a.Means c'.texts raw p := by
  rw [ofValue] at ha
  constructor
  · intro hk
    simp only [isText, Bool.or_eq_true, beq_iff_eq] at hk
    obtain hk | hk := hk
    · rw [hk] at ha
      exact expands_of_ofText hd ha
    · rw [hk] at ha
      exact expands_of_ofText hd ha
  · intro hk
    rw [hk] at ha
    exact isConstant_of_ofList ha
  · intro hk htype
    rw [hk] at ha
    exact isConstant_of_ofSelect htype ha

lemma eq_given_of_rawValue {n : Node}
    (hraw : rawValue ((Value.table n.values).orElse (.table [])) p = .ok raw) :
    raw = given n p := by
  have htable : (Value.table n.values).orElse (.table []) = .table n.values := by
    rw [Value.orElse]
    split_ifs with hempty
    · rfl
    · cases hvalues : n.values with
      | nil => rfl
      | cons e rest => simp [hvalues, Value.isTruthy] at hempty
  rw [htable, rawValue, Except.bind_eq_ok_iff] at hraw
  obtain ⟨_, -, hraw⟩ := hraw
  cases hraw
  rfl

/-- The arguments of a use are made one after the other, each from the value for its parameter, and
constants are only added meanwhile. -/
lemma made_of_listOfValues {values : Value} {args : List Argument}
    (ha : Yields (listOfValues h d values true) c args c') :
    c.texts <+: c'.texts ∧
      List.Forall₂ (fun p a => ∃ raw c₁ c₂, rawValue (values.orElse (.table [])) p = .ok raw ∧
        Yields (ofValue h d p raw true) c₁ a c₂ ∧ c₂.texts <+: c'.texts) d.params args := by
  rw [listOfValues, ofParams] at ha
  -- the parameters that are still to be looked at
  generalize d.params = ps at ha ⊢
  induction ps generalizing c args with
  | nil =>
    obtain ⟨rfl, rfl⟩ := yields_pure_iff.1 ha
    exact ⟨List.prefix_rfl, .nil⟩
  | cons p ps ih =>
    simp only [List.mapM_cons, ofParam, yields_bind_iff, yields_liftFault_iff,
      yields_pure_iff] at ha
    obtain ⟨a, c₁, ⟨raw, _, ⟨hraw, rfl⟩, ha⟩, as, _, has, rfl, rfl⟩ := ha
    obtain ⟨hmore, hargs⟩ := ih has
    exact ⟨(yields_ofValue ha).1.trans hmore, .cons ⟨raw, _, c₁, hraw, ha, hmore⟩ hargs⟩

/-- The arguments of a use mean what its node gives, parameter by parameter. -/
lemma means_of_listOfValues {n : Node} {args : List Argument} (hd : d.isSourceCode = false)
    (ha : Yields (listOfValues h d (.table n.values) true) c args c') :
    c.texts <+: c'.texts ∧
      List.Forall₂ (fun p a => a.Means c'.texts (given n p) p) d.params args := by
  obtain ⟨hgrows, hargs⟩ := made_of_listOfValues ha
  refine ⟨hgrows, hargs.imp ?_⟩
  rintro p a ⟨raw, c₁, c₂, hraw, ha, hmore⟩
  obtain rfl := eq_given_of_rawValue hraw
  exact (means_of_ofValue hd ha).mono hmore

end Argument

/-! ### The arguments of a program -/

namespace Compile

variable {h : Header} {defs : Table Value Definition} {root : Definition} {values : Value}
  {p : Program}

/-- The arguments of the calls of a program mean what the nodes give, to the end of its
construction and in every session. -/
theorem arguments_mean_values (hp : (Draft.empty.perform (program h defs root values)).1 = .ok p) :
    (∃ vs, Traces h defs root values p vs) ∧
      ∀ vs, Traces h defs root values p vs →
        (∀ c ∈ p.calls, ∃ v ∈ vs, c ∈ v.calls) ∧
        ∀ v ∈ vs, v.definition.isSourceCode = false →
          Table.get? defs v.node.name = some v.definition ∧
          (∃ id, v.calls = [⟨id, v.args.map (·.operand)⟩]) ∧
          List.Forall₂ (fun q a => Argument.Means p.constants (Argument.given v.node q) q a)
            v.definition.params v.args := by
  refine ⟨exists_traces hp, fun vs ht => ⟨fun c hc => ht.exists_visit_of_call hc, ?_⟩⟩
  intro v hv hd
  obtain ⟨s, s', hc, -, -, -, -, hconstants⟩ := ht.compiles
  obtain ⟨id, -, hcalls, -⟩ := (hc.fits v hv).ordinary_call hd
  refine ⟨hc.resolved hv, ⟨id, hcalls⟩, ?_⟩
  obtain ⟨s₁, s₂, uses, hs₂⟩ := hc.usedBefore v hv
  obtain ⟨c, hargs, rfl⟩ := yields_interning_iff.1 uses.coerced
  refine (Argument.means_of_listOfValues hd hargs).2.imp fun q a ha => ?_
  rw [hconstants]
  exact ha.mono hs₂.texts

/-- A definition with a text, a selection and a list. -/
def speech : Table Value Definition :=
  [("say", {
      name := "say"
      params := [
        { name := "text", kind := .textarea },
        { name := "voice", kind := .select },
        { name := "words", kind := .list }] })]

/-- A root that says one text with a reference and one without. -/
def speechRoot : Definition where
  name := "main"
  tree := [
    .mk "say" false [("text", "Hello, #name#"), ("voice", "low"), ("words", .list ["a", "b"])] [],
    .mk "say" false [("text", "low")] []]

theorem speech_arguments_mean : ∃ p vs,
    (Draft.empty.perform (program .standard speech speechRoot (.table []))).1 = .ok p ∧
      Traces .standard speech speechRoot (.table []) p vs ∧
      ∃ v ∈ vs, v.definition.isSourceCode = false ∧
        List.Forall₂ (fun q a => Argument.Means p.constants (Argument.given v.node q) q a)
          v.definition.params v.args := by
  have hrun : (Draft.empty.perform (program .standard speech speechRoot (.table []))).1.toOption.any
      (fun p => p.run.calls.length == 2) = true := by decide +kernel
  cases hp : (Draft.empty.perform (program .standard speech speechRoot (.table []))).1 with
  | error e => rw [hp] at hrun; cases hrun
  | ok p =>
    rw [hp] at hrun
    have hlength : p.run.calls.length = 2 := beq_iff_eq.1 hrun
    obtain ⟨⟨vs, ht⟩, hall⟩ := arguments_mean_values hp
    obtain ⟨hcalls, hmeans⟩ := hall vs ht
    obtain ⟨c, hc⟩ : ∃ c, c ∈ p.run.calls := List.exists_mem_of_length_pos (by omega)
    obtain ⟨v, hv, -⟩ := hcalls c (List.mem_append_right _ hc)
    have hd : v.definition.isSourceCode = false := by
      obtain ⟨s, s', hcs, -⟩ := ht.compiles
      obtain ⟨k, hmem, -⟩ := Table.exists_mem_of_get? (hcs.resolved hv)
      rw [speech, List.mem_singleton, Prod.mk.injEq] at hmem
      rw [hmem.2]
      rfl
    exact ⟨p, vs, rfl, ht, v, hv, hd, (hmeans v hv hd).2.2⟩

end Compile

end NodeScript
