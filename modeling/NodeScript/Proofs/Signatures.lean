import NodeScript.Proofs.Failures
import NodeScript.Proofs.Operands

/-!
# Signatures

The arguments of a use are made in one pass over the parameters of its definition. The names and the
types of the arguments are those of the parameters, whatever the values are: a function that was
built for the first use of a definition fits all other uses. `Argument.Made` says what making one
argument does, and `Argument.made_of_ofParams` what a pass does. A pass that fails has made the
arguments for the parameters before the one that fails, and nothing else.
-/

namespace NodeScript

/-- The type in generated code of the arguments for a parameter. -/
def ParamSpec.codeType (p : ParamSpec) : String :=
  match p.kind with
  | .checkbox => "bool"
  | .number => "int"
  | .select => if p.options.type.isEmpty then "str" else p.options.type
  | .textarea | .singleText | .list => "str"

namespace Argument

/-- The type and the name of an argument, as the head of a function declares them. -/
def declared (a : Argument) : String × Value :=
  (a.type, a.name)

/-- The type and the name of the arguments for a parameter. -/
def signature (p : ParamSpec) : String × Value :=
  (p.codeType, p.name)

variable {h : Header} {d : Definition} {p : ParamSpec} {raw values : Value} {intern : Bool}
  {c c' : Constants} {a : Argument}

/-! ### One argument -/

/-- What making the argument for a parameter does: constants are only added, and none is added if
interning is not asked for. -/
structure Made (p : ParamSpec) (intern : Bool) (c : Constants) (a : Argument) (c' : Constants) :
    Prop where
  signature : a.declared = signature p
  grows : c.texts <+: c'.texts
  kept : intern = false → c' = c

lemma eq_of_textOperand {s : String} {o : Operand} (hintern : intern = false)
    (ho : Yields (textOperand intern s) c o c') : c' = c := by
  subst hintern
  exact (yields_pure_iff.1 ho).2

/-- An argument that needs no constants. -/
lemma Made.of_eq {c₁ : Constants} (ha : a.declared = Argument.signature p) (hc : c₁ = c) :
    Made p intern c a c₁ := by
  subst hc
  exact ⟨ha, List.prefix_rfl, fun _ => rfl⟩

/-- An argument that is made of one text. -/
lemma Made.of_textOperand {s : String} {o : Operand} (ha : a.declared = Argument.signature p)
    (ho : Yields (textOperand intern s) c o c') : Made p intern c a c' :=
  ⟨ha, (yields_textOperand ho).1, fun hintern => eq_of_textOperand hintern ho⟩

lemma made_of_ofText (hk : p.codeType = "str") (ha : Yields (ofText h d p raw intern) c a c') :
    Made p intern c a c' := by
  have hsignature (o : Operand) : (⟨p.name, "str", o⟩ : Argument).declared = signature p := by
    rw [declared, signature, hk]
  simp only [ofText, yields_bind_iff, yields_liftFailure_iff] at ha
  obtain ⟨s, _, ⟨-, rfl⟩, ha⟩ := ha
  by_cases hsource : d.isSourceCode = true
  · rw [if_pos hsource] at ha
    obtain ⟨rfl, hc⟩ := yields_pure_iff.1 ha
    exact .of_eq (hsignature _) hc
  · rw [if_neg hsource] at ha
    obtain ⟨o, c₁, ho, ha⟩ := yields_bind_iff.1 ha
    -- the operand is put into an argument without touching the constants
    obtain ⟨o', rfl, rfl⟩ : ∃ o', a = ⟨p.name, "str", o'⟩ ∧ c' = c₁ := by
      split at ha
      · split_ifs at ha <;> exact ⟨_, yields_pure_iff.1 ha⟩
      · exact ⟨_, yields_pure_iff.1 ha⟩
    exact .of_textOperand (hsignature o') ho

lemma made_of_ofSelect (hk : p.kind = .select) (ha : Yields (ofSelect p raw intern) c a c') :
    Made p intern c a c' := by
  rw [ofSelect] at ha
  by_cases htype : p.options.type.isEmpty = true
  · rw [if_neg (by simp [htype])] at ha
    obtain ⟨o, c₁, ho, ha⟩ := yields_bind_iff.1 ha
    obtain ⟨rfl, rfl⟩ := yields_pure_iff.1 ha
    refine .of_textOperand ?_ ho
    rw [declared, signature, ParamSpec.codeType, hk]
    simp only [htype, if_true]
  · rw [if_pos (by simp [htype])] at ha
    obtain ⟨rfl, hc⟩ := yields_pure_iff.1 ha
    refine .of_eq ?_ hc
    rw [declared, signature, ParamSpec.codeType, hk]
    simp only [htype, Bool.false_eq_true, if_false]

lemma made_of_ofNumber (hk : p.codeType = "int") (ha : ofNumber h d p raw = .ok a) :
    Made p intern c a c := by
  rw [ofNumber, Except.bind_eq_ok_iff] at ha
  obtain ⟨s, -, ha⟩ := ha
  cases ha
  refine .of_eq ?_ rfl
  rw [declared, signature, hk]

lemma made_of_ofList (hk : p.codeType = "str") (ha : Yields (ofList h d p raw intern) c a c') :
    Made p intern c a c' := by
  obtain ⟨t, o, -, ho, rfl⟩ := textOperand_of_ofList ha
  refine .of_textOperand ?_ ho
  rw [declared, signature, hk]

/-- Making an argument gives it the name and the type of its parameter. -/
lemma made_of_ofValue (ha : Yields (ofValue h d p raw intern) c a c') : Made p intern c a c' := by
  rw [ofValue] at ha
  cases hk : p.kind with
  | checkbox =>
    rw [hk] at ha
    obtain ⟨rfl, hc⟩ := yields_pure_iff.1 ha
    exact .of_eq (by rw [declared, signature, ParamSpec.codeType, hk, ofCheckbox]) hc
  | textarea | singleText =>
    rw [hk] at ha
    exact made_of_ofText (by rw [ParamSpec.codeType, hk]) ha
  | select =>
    rw [hk] at ha
    exact made_of_ofSelect hk ha
  | number =>
    rw [hk] at ha
    obtain ⟨hnumber, rfl⟩ := yields_liftFailure_iff.1 ha
    exact made_of_ofNumber (by rw [ParamSpec.codeType, hk]) hnumber
  | list =>
    rw [hk] at ha
    exact made_of_ofList (by rw [ParamSpec.codeType, hk]) ha

/-- An argument fails because its value cannot be looked up, or because it cannot be made. The
constants stay as they are. -/
lemma stops_ofParam_iff {e : Failure} :
    Stops (ofParam h d values intern p) c e c' ↔
      ((∃ f, rawValue values p = .error f ∧ e = .fault f) ∨
        ∃ raw, rawValue values p = .ok raw ∧ Stops (ofValue h d p raw intern) c e c) ∧ c' = c := by
  rw [ofParam, stops_bind_iff, stops_liftFault_iff]
  simp only [yields_liftFault_iff]
  constructor
  · rintro (⟨hf, rfl⟩ | ⟨raw, _, ⟨hraw, rfl⟩, hstops⟩)
    · exact ⟨.inl hf, rfl⟩
    · obtain ⟨-, rfl⟩ := stops_ofValue_iff.1 hstops
      exact ⟨.inr ⟨raw, hraw, hstops⟩, rfl⟩
  · rintro ⟨hf | ⟨raw, hraw, hstops⟩, rfl⟩
    · exact .inl ⟨hf, rfl⟩
    · exact .inr ⟨raw, _, ⟨hraw, rfl⟩, hstops⟩

/-- A value is looked up under the name of its parameter, if values are given as an object and the
name can be a key. -/
lemma exists_rawValue (hvalues : values.IsObject) (hp : p.name.checkKey = .ok ()) :
    ∃ entries, values.orElse (.table []) = .table entries ∧
      rawValue (values.orElse (.table [])) p = .ok ((Table.get? entries p.name).getD .null) := by
  obtain ⟨entries, hentries⟩ := hvalues.orElse
  refine ⟨entries, hentries, ?_⟩
  rw [hentries, rawValue, hp]
  rfl

/-! ### All arguments -/

variable {ps : List ParamSpec} {args : List Argument}

/-- What a pass over parameters does. -/
lemma made_of_ofParams (ha : Yields (ofParams h d values intern ps) c args c') :
    args.map declared = ps.map signature ∧ c.texts <+: c'.texts ∧ (intern = false → c' = c) := by
  rw [ofParams] at ha
  induction ps generalizing c args with
  | nil =>
    obtain ⟨rfl, rfl⟩ := yields_pure_iff.1 ha
    exact ⟨rfl, List.prefix_rfl, fun _ => rfl⟩
  | cons p ps ih =>
    simp only [List.mapM_cons, ofParam, yields_bind_iff, yields_liftFault_iff,
      yields_pure_iff] at ha
    obtain ⟨a, c₁, ⟨raw, _, ⟨-, rfl⟩, ha⟩, as, _, has, rfl, rfl⟩ := ha
    have hmade := made_of_ofValue ha
    obtain ⟨hsignatures, hgrows, hkept⟩ := ih has
    refine ⟨?_, hmade.grows.trans hgrows, fun hintern => ?_⟩
    · rw [List.map_cons, List.map_cons, hmade.signature, hsignatures]
    · rw [hkept hintern, hmade.kept hintern]

/-- A pass over parameters fails at the first parameter that fails, with the constants that the
parameters before it need. -/
lemma stops_ofParams_iff {e : Failure} :
    Stops (ofParams h d values intern ps) c e c' ↔
      ∃ before p after done, ps = before ++ p :: after ∧
        Yields (ofParams h d values intern before) c done c' ∧
        Stops (ofParam h d values intern p) c' e c' := by
  rw [ofParams, stops_mapM_iff]
  constructor
  · rintro ⟨before, p, after, done, c₁, rfl, hdone, hstops⟩
    obtain ⟨-, rfl⟩ := stops_ofParam_iff.1 hstops
    exact ⟨before, p, after, done, rfl, hdone, hstops⟩
  · rintro ⟨before, p, after, done, rfl, hdone, hstops⟩
    exact ⟨before, p, after, done, c', rfl, hdone, hstops⟩

/-- Constants are only added, also if a pass fails, and none is added if interning is not asked
for. -/
lemma grows_run_ofParams (h : Header) (d : Definition) (values : Value) (intern : Bool)
    (ps : List ParamSpec) (c : Constants) :
    let run := (ofParams h d values intern ps).run c
    c.texts <+: run.2.texts ∧ (intern = false → run.2 = c) := by
  intro run
  rcases hrun : (ofParams h d values intern ps).run c with ⟨r, c'⟩
  simp only [run, hrun]
  cases r with
  | ok args => exact (made_of_ofParams hrun).2
  | error e =>
    obtain ⟨before, p, after, done, -, hdone, -⟩ := stops_ofParams_iff.1 hrun
    exact (made_of_ofParams hdone).2

end Argument

/-! ### The functions of definitions -/

namespace Compile

variable {h : Header} {defs : Catalogue} {ns : List Node} {s s' : Draft} {cs : List Call}
  {vs : List Visit}

lemma Uses.declared_eq {n : Node} {d : Definition} {args : List Argument}
    (hu : Uses h defs n d args s s') :
    args.map Argument.declared = d.params.map Argument.signature := by
  obtain ⟨c, hargs, -⟩ := yields_interning_iff.1 hu.coerced
  rw [Argument.listOfValues] at hargs
  exact (Argument.made_of_ofParams hargs).1

/-- A function is that of a definition, whose name is a text, or of one use of code of the user. -/
lemma Compiles.cases_of_block (hc : Compiles h defs ns s cs s' vs) {v : Visit} (hv : v ∈ vs)
    {f : FunctionBlock} (hf : v.block = some (.function f)) :
    (v.definition.isSourceCode = false ∧ (∃ name, v.definition.name = .text name) ∧
      ∃ id code calls predefined inner,
        f = functionOf v.definition id v.args code calls predefined inner) ∨
    (v.definition.isSourceCode = true ∧ ∃ id code calls,
      f = sourceFunction v.definition id code calls) := by
  induction hc with
  | nil => cases hv
  | disabled _ _ ih => exact ih hv
  | again _ _ _ _ ih =>
    obtain rfl | hv := List.mem_cons.1 hv
    · cases hf
    · exact ih hv
  | first _ ordinary _ link _ _ _ _ _ _ ihc iht ihr =>
    simp only [List.mem_append, List.mem_cons] at hv
    obtain (hv | hv) | rfl | hv := hv
    · exact ihc hv
    · exact iht hv
    · cases hf
      obtain ⟨name, hname, -⟩ := Draft.yields_link link
      exact .inl ⟨ordinary, ⟨name, hname⟩, _, _, _, _, _, rfl⟩
    · exact ihr hv
  | topLevel _ _ _ _ _ _ ihc ihr =>
    simp only [List.mem_append, List.mem_cons] at hv
    obtain hv | rfl | hv := hv
    · exact ihc hv
    · cases hf
    · exact ihr hv
  | inline _ source _ _ _ _ _ ihc ihr =>
    simp only [List.mem_append, List.mem_cons] at hv
    obtain hv | rfl | hv := hv
    · exact ihc hv
    · cases hf
      exact .inr ⟨source, _, _, _, rfl⟩
    · exact ihr hv

/-- The function of a definition declares the arguments of the use that it was built for. -/
lemma Compiles.params_of_block (hc : Compiles h defs ns s cs s' vs) {v : Visit} (hv : v ∈ vs)
    (hd : v.definition.isSourceCode = false) {f : FunctionBlock}
    (hf : v.block = some (.function f)) : f.params = v.args.map Argument.declared := by
  obtain ⟨-, -, _, _, _, _, _, rfl⟩ | ⟨source, -⟩ := hc.cases_of_block hv hf
  · rfl
  · rw [source] at hd
    cases hd

/-- Every use of a definition is a call of the function that was built for one of them, and fits
it. -/
lemma Traces.call_fits {root : Definition} {values : Value} {p : Program}
    (ht : Traces h defs root values p vs) {v w : Visit} (hv : v ∈ vs) (hw : w ∈ vs)
    (hdef : w.definition = v.definition) (hd : v.definition.isSourceCode = false)
    {f : FunctionBlock} (hf : w.block = some (.function f)) :
    v.calls = [⟨f.id, v.args.map (·.operand)⟩] ∧ f.params = v.args.map Argument.declared := by
  obtain ⟨s, s', hc, -⟩ := ht.compiles
  obtain ⟨_, _, hv', -⟩ := hc.usedBefore v hv
  obtain ⟨_, _, hw', -⟩ := hc.usedBefore w hw
  constructor
  · obtain ⟨id, hid, hcalls, -⟩ := (hc.fits v hv).ordinary_call hd
    have hlinked := ((hc.fits w hw).ordinary_function (hdef ▸ hd) hf).1
    rw [hdef, hid] at hlinked
    rw [hcalls, Option.some.inj hlinked]
  · rw [hc.params_of_block hw (hdef ▸ hd) hf, hv'.declared_eq, hw'.declared_eq, hdef]

end Compile

/-! ### The pass over the parameters -/

/-- The arguments of a use are made in the order of the parameters, with their names and with types
that depend on the definition only, so that every use of a definition fits its function. A pass that
fails does so at the first parameter that fails, and has added the constants that the parameters
before it need; this is the failure of making the argument, unless the value cannot be looked up,
for which the values would have to be no object or the name no key. No constant is ever moved, and
none is added if interning is not asked for. -/
theorem Argument.one_pass_in_order (h : Header) (d : Definition) (values values' : Value)
    (intern : Bool) (c c' : Constants) :
    let run := (listOfValues h d values intern).run c
    let given := values.orElse (.table [])
    (∀ args, run.1 = .ok args →
      args.map (·.name) = d.params.map (·.name) ∧
      args.map (·.type) = d.params.map (·.codeType) ∧
      ∀ args', ((listOfValues h d values' intern).run c').1 = .ok args' →
        args'.map (·.type) = args.map (·.type)) ∧
    (∀ e, run.1 = .error e ↔ ∃ before p after done, d.params = before ++ p :: after ∧
      (ofParams h d given intern before).run c = (.ok done, run.2) ∧
      ((∃ f, rawValue given p = .error f ∧ e = .fault f) ∨
        ∃ raw, rawValue given p = .ok raw ∧
          (ofValue h d p raw intern).run run.2 = (.error e, run.2))) ∧
    (∀ p : ParamSpec, values.IsObject → p.name.checkKey = .ok () →
      ∃ entries, given = .table entries ∧
        rawValue given p = .ok ((Table.get? entries p.name).getD .null)) ∧
    (intern = false → run.2 = c) ∧ c.texts <+: run.2.texts ∧
    ∀ (defs : Catalogue) (root : Definition) (input : Value) (p : Program) (vs : List Visit),
      Compile.Traces h defs root input p vs → ∀ v ∈ vs, v.definition.isSourceCode = false →
        ∀ w ∈ vs, w.definition = v.definition → ∀ f, w.block = some (.function f) →
          v.calls = [⟨f.id, v.args.map (·.operand)⟩] ∧
            f.params = v.args.map fun a => (a.type, a.name) := by
  intro run given
  have hnames : ∀ {ps : List ParamSpec} {args : List Argument},
      args.map declared = ps.map signature →
      args.map (·.name) = ps.map (·.name) ∧ args.map (·.type) = ps.map (·.codeType) := by
    intro ps args hargs
    have hname := congrArg (List.map Prod.snd) hargs
    have htype := congrArg (List.map Prod.fst) hargs
    simp only [List.map_map] at hname htype
    exact ⟨hname, htype⟩
  have hgrows := grows_run_ofParams h d given intern d.params c
  refine ⟨fun args hargs => ?_, fun e => ?_, fun p => exists_rawValue, hgrows.2, hgrows.1, ?_⟩
  · have hrun : Yields (ofParams h d given intern d.params) c args run.2 := Prod.ext hargs rfl
    obtain ⟨hname, htype⟩ := hnames (made_of_ofParams hrun).1
    refine ⟨hname, htype, fun args' hargs' => ?_⟩
    rw [htype]
    exact (hnames (made_of_ofParams (Prod.ext hargs' rfl)).1).2
  · have hstops : run.1 = .error e ↔ Stops (ofParams h d given intern d.params) c e run.2 :=
      ⟨fun he => Prod.ext he rfl, fun he => congrArg Prod.fst he⟩
    rw [hstops, stops_ofParams_iff]
    simp only [stops_ofParam_iff, and_true]
    rfl
  · intro defs root input p vs ht v hv hd w hw hdef f hf
    exact ht.call_fits hv hw hdef hd hf

/-- A definition with parameters of most kinds, the last of which must be given. -/
def Argument.ledger : Definition where
  name := "ledger"
  params := [
    { name := "owner", kind := .singleText, options := { default := "nobody" } },
    { name := "open", kind := .checkbox },
    { name := "rate", kind := .select, options := { type := "float" } },
    { name := "color", kind := .select },
    { name := "count", kind := .number },
    { name := "pages", kind := .list, options := { required := true } }]

/-- Without pages the pass fails after the constants of the parameters before them were added; with
pages the types are those of the parameters. -/
theorem Argument.ledger_in_order :
    let short := (listOfValues .standard ledger (.table [("color", "red")]) true).run .empty
    let full := (listOfValues .standard ledger (.table [("pages", .list [.int 1])]) true).run .empty
    short.1.isOk = false ∧ short.2.texts = ["nobody", "red"] ∧
      (∃ before p after done, ledger.params = before ++ p :: after ∧
        (ofParams .standard ledger (.table [("color", "red")]) true before).run .empty =
          (.ok done, short.2)) ∧
      ∃ args, full.1 = .ok args ∧
        args.map (·.name) = ["owner", "open", "rate", "color", "count", "pages"] ∧
        args.map (·.type) = ["str", "bool", "float", "str", "int", "str"] := by
  intro short full
  obtain ⟨-, hfails, -⟩ := one_pass_in_order .standard ledger (.table [("color", "red")])
    (.table []) true .empty .empty
  obtain ⟨hmade, -⟩ := one_pass_in_order .standard ledger (.table [("pages", .list [.int 1])])
    (.table []) true .empty .empty
  obtain ⟨hshort, htexts, hfull⟩ :
      short.1.isOk = false ∧ short.2.texts = ["nobody", "red"] ∧ full.1.isOk = true := by
    decide +kernel
  refine ⟨hshort, htexts, ?_, ?_⟩
  · cases he : short.1 with
    | ok args =>
      rw [he] at hshort
      cases hshort
    | error e =>
      obtain ⟨before, p, after, done, hparams, hdone, -⟩ := (hfails e).1 he
      exact ⟨before, p, after, done, hparams, hdone⟩
  · obtain ⟨args, hargs⟩ := exists_ok_of_isOk hfull
    obtain ⟨hname, htype, -⟩ := hmade args hargs
    exact ⟨args, hargs, hname, htype⟩

end NodeScript
