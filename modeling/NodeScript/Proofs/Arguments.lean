import NodeScript.Proofs.Operands
import NodeScript.Proofs.Statements
import NodeScript.Proofs.Text

/-!
# Arguments from values of the user

Most values of the user are no part of the line of a call, since they become flags or references to
constants. Two kinds are copied: a selection of a declared type, and a number. So if what is copied
divides nothing, then each use of a definition is read as one statement, with one argument for each
parameter, and no value adds arguments or statements.
-/

namespace NodeScript

/-! ### Literals -/

namespace Argument

/-- The characters that divide arguments or statements. -/
def dividers : List Char :=
  [',', '(', ')', '\r', '\n']

/-- Whether a text is not empty and divides nothing. -/
def isAtom (s : String) : Bool :=
  !s.isEmpty && s.toList.all fun c => !dividers.contains c

/-- A text without its sign. -/
def unsigned : List Char → List Char
  | [] => []
  | c :: cs => if c = '+' ∨ c = '-' then cs else c :: cs

/-- Whether a text is an integer: decimal digits, with a sign or without. -/
def isInteger (s : String) : Bool :=
  !(unsigned s.toList).isEmpty && (unsigned s.toList).all Char.isDigit

/-- A text refers to a constant, expanded or not. -/
def IsReference (s : String) : Prop :=
  ∃ i, s = StringTable.reference i ∨ s = "macro(" ++ StringTable.reference i ++ ")"

/-- A text is a literal of the type that a parameter declares. -/
def IsLiteral (p : ParamSpec) (s : String) : Prop :=
  match p.kind with
  | .checkbox => s = "true" ∨ s = "false"
  | .textarea | .singleText | .list => IsReference s
  | .select => if p.options.type = "" then IsReference s else isAtom s = true
  | .number => isInteger s = true

/-- The text of a number: what is given, the default where that is empty, or zero where there is
neither. -/
def numeral (p : ParamSpec) (raw : Value) : String :=
  if (written p raw).isEmpty then "0" else written p raw

/-- The text of the user that is copied for a parameter. -/
def copied? (p : ParamSpec) (raw : Value) : Option String :=
  match p.kind with
  | .number => some (numeral p raw)
  | .select => if p.options.type = "" then none else some raw.normalized
  | _ => none

variable {h : Header} {d : Definition} {p : ParamSpec} {raw : Value} {c c' : Constants}
  {a : Argument}

/-- What is not copied is written as a literal. -/
structure Shaped (raw : Value) (p : ParamSpec) (a : Argument) : Prop where
  literal : copied? p raw = none → IsLiteral p a.operand.render
  copied : ∀ {t}, copied? p raw = some t → a.operand.render = t

lemma isReference_of_isConstant {constants : List String} {t : String} {o : Operand}
    (ho : o.IsConstant constants t) : IsReference o.render := by
  obtain ⟨i, rfl, -⟩ := ho
  exact ⟨i, .inl rfl⟩

lemma isReference_of_expands {constants : List String} {t : String} {o : Operand}
    (ho : o.Expands constants t) : IsReference o.render := by
  obtain ⟨⟨i, -, hi⟩, -⟩ := ho
  exact ⟨i, hi⟩

lemma render_of_ofNumber (ha : ofNumber h d p raw = .ok a) : a.operand.render = numeral p raw := by
  obtain ⟨t, ht, ha⟩ := Except.bind_eq_ok_iff.1 ha
  cases ha
  rw [eq_written_of_textOrDefault ht]
  rfl

lemma render_of_ofSelect (htype : p.options.type ≠ "")
    (ha : Yields (ofSelect p raw true) c a c') : a.operand.render = raw.normalized := by
  rw [ofSelect, if_pos (by simpa using htype)] at ha
  obtain ⟨rfl, -⟩ := yields_pure_iff.1 ha
  rfl

lemma shaped_of_ofValue (hd : d.isSourceCode = false)
    (ha : Yields (ofValue h d p raw true) c a c') : a.Shaped raw p := by
  have hmeans := means_of_ofValue hd ha
  rw [ofValue] at ha
  cases hk : p.kind with
  | checkbox =>
    rw [hk] at ha
    obtain ⟨rfl, -⟩ := yields_pure_iff.1 ha
    refine ⟨fun _ => ?_, fun ht => by simp [copied?, hk] at ht⟩
    simp only [IsLiteral, hk, ofCheckbox, Operand.render]
    split_ifs <;> simp
  | textarea | singleText =>
    refine ⟨fun _ => ?_, fun ht => by simp [copied?, hk] at ht⟩
    simp only [IsLiteral, hk]
    exact isReference_of_expands (hmeans.text (by simp [isText, hk]))
  | select =>
    by_cases htype : p.options.type = ""
    · refine ⟨fun _ => ?_, fun ht => by simp [copied?, hk, htype] at ht⟩
      simp only [IsLiteral, hk, htype, if_true]
      exact isReference_of_isConstant (hmeans.select hk htype)
    · refine ⟨fun hnone => by simp [copied?, hk, htype] at hnone, fun ht => ?_⟩
      simp only [copied?, hk, htype, if_false, Option.some.injEq] at ht
      rw [hk] at ha
      rw [render_of_ofSelect htype ha, ht]
  | number =>
    rw [hk] at ha
    refine ⟨fun hnone => by simp [copied?, hk] at hnone, fun ht => ?_⟩
    simp only [copied?, hk, Option.some.injEq] at ht
    rw [render_of_ofNumber (yields_liftFailure_iff.1 ha).1, ht]
  | list =>
    refine ⟨fun _ => ?_, fun ht => by simp [copied?, hk] at ht⟩
    simp only [IsLiteral, hk]
    obtain ⟨t, -, ht⟩ := hmeans.list hk
    exact isReference_of_isConstant ht

lemma shaped_of_listOfValues {values : Value} {args : List Argument} (hd : d.isSourceCode = false)
    (ha : Yields (listOfValues h d values true) c args c') :
    List.Forall₂ (fun p a => ∃ raw, rawValue (values.orElse (.table [])) p = .ok raw ∧
      a.Shaped raw p) d.params args := by
  refine (made_of_listOfValues ha).2.imp ?_
  rintro p a ⟨raw, c₁, c₂, hraw, ha, -⟩
  exact ⟨raw, hraw, shaped_of_ofValue hd ha⟩

/-! ### Literals divide nothing -/

lemma isAtom_of_isName {s : String} (hne : s ≠ "") (hs : Identifier.IsName s) :
    isAtom s = true := by
  have hkept : dividers.all (fun c => !Identifier.isKept c) = true := by decide
  rw [isAtom, Bool.and_eq_true, List.all_eq_true]
  refine ⟨by simpa using hne, fun c hc => ?_⟩
  rw [Bool.not_eq_true', List.contains_eq_mem, decide_eq_false_iff_not]
  intro hmem
  simpa [hs c hc] using List.all_eq_true.1 hkept c hmem

lemma apart_of_isAtom {s : String} (hs : isAtom s = true) : CallLine.Apart s := by
  simp only [isAtom, Bool.and_eq_true, List.all_eq_true, Bool.not_eq_true',
    List.contains_eq_mem, decide_eq_false_iff_not, dividers, List.mem_cons, List.not_mem_nil,
    or_false, not_or] at hs
  refine ⟨by simpa using hs.1, .of_plain fun c hc => ?_, fun c hc => ?_⟩
  · obtain ⟨hcomma, hopen, hclose, -⟩ := hs.2 c hc
    simp [hcomma, hopen, hclose]
  · obtain ⟨-, -, -, hreturn, hfeed⟩ := hs.2 c hc
    simp [CallLine.isBreak, hreturn, hfeed]

lemma apart_reference (i : Nat) : CallLine.Apart (StringTable.reference i) := by
  refine apart_of_isAtom (isAtom_of_isName ?_ ?_)
  · simp [StringTable.reference]
  · exact Identifier.IsName.numbered (List.all_eq_true.1 (by decide)) i

lemma apart_of_isReference {s : String} (hs : IsReference s) : CallLine.Apart s := by
  obtain ⟨i, rfl | rfl⟩ := hs
  · exact apart_reference i
  · have href := apart_reference i
    have hword : CallLine.Apart "macro" := apart_of_isAtom (by decide)
    have hlist : ("macro(" ++ StringTable.reference i ++ ")").toList =
        "macro".toList ++ '(' :: ((StringTable.reference i).toList ++ ')' :: []) := by
      simp
    refine ⟨by simp, ?_, ?_⟩
    · rw [hlist]
      exact hword.whole.append (.bracket href.whole .nil)
    · rw [hlist, List.forall_mem_append, List.forall_mem_cons, List.forall_mem_append]
      exact ⟨hword.unbroken, rfl, href.unbroken, List.forall_mem_singleton.2 rfl⟩

/-- An argument divides nothing if the text that is copied for it does not. -/
lemma Shaped.apart (ha : a.Shaped raw p)
    (hcopied : ∀ t, copied? p raw = some t → isAtom t = true) :
    CallLine.Apart a.operand.render := by
  cases ht : copied? p raw with
  | some t =>
    rw [ha.copied ht]
    exact apart_of_isAtom (hcopied t ht)
  | none =>
    have hliteral := ha.literal ht
    rw [IsLiteral] at hliteral
    rw [copied?] at ht
    cases hk : p.kind with
    | checkbox =>
      simp only [hk] at hliteral
      obtain htext | htext := hliteral
      · rw [htext]
        exact apart_of_isAtom (by decide)
      · rw [htext]
        exact apart_of_isAtom (by decide)
    | textarea | singleText | list =>
      simp only [hk] at hliteral
      exact apart_of_isReference hliteral
    | select =>
      simp only [hk, ite_eq_left_iff, reduceCtorEq, imp_false, not_not] at ht
      simp only [hk, ht, if_true] at hliteral
      exact apart_of_isReference hliteral
    | number => simp [hk] at ht

end Argument

/-! ### Numbers -/

lemma toList_toString (n : Int) :
    (toString n).toList = (if n < 0 then ['-'] else []) ++ (toString n.natAbs).toList := by
  cases n with
  | ofNat m => rfl
  | negSucc m =>
    rw [if_pos (Int.negSucc_lt_zero m)]
    exact String.toList_append

namespace Argument

lemma unsigned_of_digits {cs : List Char} (hcs : ∀ c ∈ cs, c.isDigit = true) :
    unsigned cs = cs := by
  cases cs with
  | nil => rfl
  | cons c cs =>
    rw [unsigned, if_neg]
    rintro (rfl | rfl)
    · exact absurd (hcs _ List.mem_cons_self) (by decide)
    · exact absurd (hcs _ List.mem_cons_self) (by decide)

lemma isInteger_toString (n : Int) : isInteger (toString n) = true := by
  have hdigits : ∀ c ∈ (toString n.natAbs).toList, c.isDigit = true :=
    fun c hc => Identifier.isDigit_of_mem_toString hc
  have hunsigned : unsigned (toString n).toList = (toString n.natAbs).toList := by
    rw [toList_toString]
    split_ifs
    · rfl
    · exact unsigned_of_digits hdigits
  rw [isInteger, hunsigned, Bool.and_eq_true, List.all_eq_true]
  exact ⟨by simp, hdigits⟩

end Argument

namespace Value

/-- The integer that a value is. -/
def whole? : Value → Option Int
  | .int n => some n
  | .real x => x.toInt?
  | _ => none

lemma normalized_of_whole? {v : Value} {n : Int} (hv : v.whole? = some n) :
    v.normalized = toString n := by
  cases v with
  | int m =>
    cases hv
    refine Text.trim_of_not_blank fun c hc => ?_
    change c ∈ (toString n).toList at hc
    rw [toList_toString, List.mem_append] at hc
    obtain hsign | hdigit := hc
    · split_ifs at hsign
      · rw [List.mem_singleton.1 hsign]
        rfl
      · cases hsign
    · exact Text.isBlank_of_isDigit (Identifier.isDigit_of_mem_toString hdigit)
  | real x =>
    change x.toInt? = some n at hv
    rw [normalized, hv]
  | _ => cases hv

end Value

namespace Argument

/-- An argument is a literal of the type of its parameter, except that text of the user is copied:
that of a selection of a declared type in any case, and that of a number if it is an integer. -/
structure Faithful (raw : Value) (p : ParamSpec) (a : Argument) : Prop where
  literal : copied? p raw = none → IsLiteral p a.operand.render
  copied : ∀ t, copied? p raw = some t → IsLiteral p t → a.operand.render = t
  select : p.kind = .select → p.options.type ≠ "" → a.operand.render = raw.normalized
  whole : p.kind = .number → ∀ n, raw.whole? = some n →
    a.operand.render = toString n ∧ IsLiteral p (toString n)

lemma numeral_of_whole? {p : ParamSpec} {raw : Value} {n : Int} (hn : raw.whole? = some n) :
    numeral p raw = toString n := by
  have hne : (toString n).isEmpty = false := by
    rw [String.isEmpty_eq_false_iff]
    intro hempty
    have hinteger := isInteger_toString n
    rw [hempty] at hinteger
    cases hinteger
  simp only [numeral, written, Value.normalized_of_whole? hn, hne, Bool.false_eq_true, if_false]

lemma Shaped.faithful {raw : Value} {p : ParamSpec} {a : Argument} (ha : a.Shaped raw p) :
    a.Faithful raw p where
  literal := ha.literal
  copied _ ht _ := ha.copied ht
  select hk htype := ha.copied (by simp [copied?, hk, htype])
  whole hk n hn := by
    rw [ha.copied (t := numeral p raw) (by simp [copied?, hk]), numeral_of_whole? hn, IsLiteral, hk]
    exact ⟨rfl, isInteger_toString n⟩

end Argument

/-! ### The calls of a compilation -/

/-- What is copied from the values of a visited node divides nothing. -/
def Visit.Harmless (v : Visit) : Prop :=
  v.definition.isSourceCode = false → ∀ p ∈ v.definition.params, ∀ t,
    Argument.copied? p (Argument.given v.node p) = some t → Argument.isAtom t = true

/-- Uses of definitions are read as what they are: each as one statement with one argument for each
parameter, and any of their calls as so many statements. -/
structure Visit.ReadBack (vs : List Visit) : Prop where
  statement : ∀ v ∈ vs, v.definition.isSourceCode = false → v.Harmless → ∃ f,
    readCalls (renderCalls v.calls) = some [(f, v.args.map (·.operand.render))] ∧
      v.args.length = v.definition.params.length
  block : ∀ cs : List Call, (∀ c ∈ cs, ∃ v ∈ vs, c ∈ v.calls ∧ v.Harmless) →
    readCalls (renderCalls cs) = some (cs.map Call.texts)

/-- A call of code of the user has no arguments. -/
lemma Visit.Fits.source_call {s : Draft} {v : Visit} (hv : v.Fits s)
    (hd : v.definition.isSourceCode = true) {c : Call} (hc : c ∈ v.calls) : c.args = [] := by
  cases hv with
  | again ordinary | first ordinary => rw [ordinary] at hd; cases hd
  | topLevel => cases hc
  | inline => rw [List.mem_singleton.1 hc]

namespace Compile

variable {h : Header} {defs : Catalogue} {ns : List Node} {n : Node} {s s' : Draft}
  {cs : List Call} {vs : List Visit}

lemma Uses.apart {d : Definition} {args : List Argument} (uses : Uses h defs n d args s s')
    (hd : d.isSourceCode = false)
    (hcopied : ∀ p ∈ d.params, ∀ t,
      Argument.copied? p (Argument.given n p) = some t → Argument.isAtom t = true) :
    ∀ a ∈ args, CallLine.Apart a.operand.render := by
  obtain ⟨c, hargs, -⟩ := yields_interning_iff.1 uses.coerced
  have hshaped := Argument.shaped_of_listOfValues hd hargs
  clear hargs uses
  -- the parameters and arguments that are still to be looked at
  generalize d.params = ps at hshaped hcopied
  induction hshaped with
  | nil => simp
  | cons ha _ ih =>
    obtain ⟨raw, hraw, ha⟩ := ha
    obtain rfl := Argument.eq_given_of_rawValue hraw
    rw [List.forall_mem_cons] at hcopied ⊢
    exact ⟨ha.apart hcopied.1, ih hcopied.2⟩

lemma Compiles.apart (hc : Compiles h defs ns s cs s' vs) {v : Visit} (hv : v ∈ vs)
    (hharmless : v.Harmless) {c : Call} (hcall : c ∈ v.calls) :
    ∀ o ∈ c.args, CallLine.Apart o.render := by
  cases hd : v.definition.isSourceCode with
  | false =>
    obtain ⟨id, -, hcalls, -⟩ := (hc.fits v hv).ordinary_call hd
    obtain ⟨s₁, s₂, uses, -⟩ := hc.usedBefore v hv
    rw [hcalls, List.mem_singleton] at hcall
    subst hcall
    exact List.forall_mem_map.2 (uses.apart hd (hharmless hd))
  | true =>
    rw [(hc.fits v hv).source_call hd hcall]
    exact List.forall_mem_nil _

lemma Compiles.readBack (hc : Compiles h defs ns s cs s' vs) (hs : s.Named) :
    Visit.ReadBack vs := by
  have hblock : ∀ cs : List Call, (∀ c ∈ cs, ∃ v ∈ vs, c ∈ v.calls ∧ v.Harmless) →
      readCalls (renderCalls cs) = some (cs.map Call.texts) := by
    intro cs hcs
    refine readCalls_renderCalls (fun c hmem => ?_) (fun c hmem => ?_)
    · obtain ⟨v, hv, hcall, -⟩ := hcs c hmem
      exact hc.isName_of_call hs hv hcall
    · obtain ⟨v, hv, hcall, hharmless⟩ := hcs c hmem
      exact hc.apart hv hharmless hcall
  refine ⟨fun v hv hd hharmless => ?_, hblock⟩
  obtain ⟨id, -, hcalls, harity⟩ := (hc.fits v hv).ordinary_call hd
  refine ⟨id, ?_, harity⟩
  rw [hblock v.calls fun c hcall => ⟨v, hv, hcall, hharmless⟩, hcalls]
  simp [Call.texts]

/-- The calls that a single node becomes are those of its visit. -/
lemma Compiles.exists_visit_of_singleton (hc : Compiles h defs [n] s cs s' vs)
    (hn : n.disabled = false) : ∃ v ∈ vs, v.node = n ∧ v.calls = cs := by
  cases hc with
  | disabled off => rw [hn] at off; cases off
  | again _ _ _ rest =>
    cases rest
    exact ⟨_, List.mem_cons_self, rfl, rfl⟩
  | first _ _ _ _ _ _ _ _ _ rest =>
    cases rest
    exact ⟨_, List.mem_append_right _ List.mem_cons_self, rfl, rfl⟩
  | topLevel _ _ _ _ _ rest =>
    cases rest
    exact ⟨_, List.mem_append_right _ List.mem_cons_self, rfl, rfl⟩
  | inline _ _ _ _ _ _ rest =>
    cases rest
    exact ⟨_, List.mem_append_right _ List.mem_cons_self, rfl, rfl⟩

/-- Values of the user stay arguments. Each argument that is made for a parameter is a literal of
its type, unless text is copied for it. Nodes that are compiled, after any actions and as part of
any program, become calls that are read as what they are, unless what is copied divides
something. -/
theorem values_stay_arguments (h : Header) (defs : Catalogue) (actions : List Action) :
    (∀ (d : Definition) (values : Value) (c c' : Constants) (args : List Argument),
      d.isSourceCode = false → Yields (Argument.listOfValues h d values true) c args c' →
      List.Forall₂ (fun p a => ∃ raw, Argument.rawValue (values.orElse (.table [])) p = .ok raw ∧
        a.Faithful raw p) d.params args) ∧
    let w := (⟨defs, .empty⟩ : Workbench).after h actions
    (∀ ns cs s' reports, w.compile h ns = (.ok cs, s', reports) →
      ∃ vs, Compiles h w.catalogue ns { w.draft with constants.journal := [] } cs s' vs ∧
        Visit.ReadBack vs ∧
        ∀ n, ns = [n] → n.disabled = false → ∃ v ∈ vs, v.node = n ∧ v.calls = cs) ∧
    ∀ root values p, (w.restart h root values).1 = .ok p →
      ∃ vs, Traces h w.catalogue root values p vs ∧ Visit.ReadBack vs ∧
        ∀ c ∈ p.calls, ∃ v ∈ vs, c ∈ v.calls := by
  refine ⟨fun d values c c' args hd ha => ?_, fun ns cs s' reports hc => ?_,
    fun root values p hp => ?_⟩
  · refine (Argument.shaped_of_listOfValues hd ha).imp ?_
    rintro p a ⟨raw, hraw, hshaped⟩
    exact ⟨raw, hraw, hshaped.faithful⟩
  · obtain ⟨vs, hvs⟩ := Workbench.compiles_of_compile hc
    refine ⟨vs, hvs, hvs.readBack (Workbench.named_after Draft.named_empty actions), ?_⟩
    rintro n rfl hn
    exact hvs.exists_visit_of_singleton hn
  · obtain ⟨vs, ht⟩ := exists_traces hp
    obtain ⟨s, s', hc, hlinked, -⟩ := ht.compiles
    have hs : s.Named := fun _ _ hid => by rw [hlinked] at hid; cases hid
    exact ⟨vs, ht, hc.readBack hs, fun c hmem => ht.exists_visit_of_call hmem⟩

/-- A definition with a parameter of each kind. -/
def panel : Definition where
  name := "panel"
  params := [
    { name := "flag", kind := .checkbox },
    { name := "note", kind := .textarea },
    { name := "title", kind := .singleText },
    { name := "color", kind := .select },
    { name := "mode", kind := .select, options := { type := "int" } },
    { name := "count", kind := .number },
    { name := "items", kind := .list }]

/-- A use of it with texts that divide arguments and statements wherever they were copied. -/
def panelNode : Node :=
  .mk "panel" false
    [("flag", "x), quit("), ("note", "a)\r\n   quit()\r\n"), ("title", "#a#, b"),
      ("color", "red, blue"), ("mode", "LOW"), ("count", .int (-12)), ("items", .list ["a, (b"])] []

/-- The definition is in use, and a compilation has failed. -/
def panelActions : List Action :=
  [.compile [.mk "panel" false [] []], .compile [.mk "lost" false [] []]]

theorem panel_values_stay :
    let w := (⟨[("panel", panel)], .empty⟩ : Workbench).after .standard panelActions
    ∃ cs s' reports, w.compile .standard [panelNode] = (.ok cs, s', reports) ∧ ∃ f texts,
      readCalls (renderCalls cs) = some [(f, texts)] ∧ texts.length = 7 := by
  intro w
  have hok : (w.compile .standard [panelNode]).1.isOk = true := by decide +kernel
  have hatoms : panel.params.all (fun p =>
      (Argument.copied? p (Argument.given panelNode p)).all Argument.isAtom) = true := by
    decide +kernel
  rcases hc : w.compile .standard [panelNode] with ⟨e | cs, s', reports⟩
  · rw [hc] at hok
    cases hok
  · obtain ⟨-, hcompile, -⟩ :=
      values_stay_arguments .standard [("panel", panel)] panelActions
    obtain ⟨vs, hvs, hback, hvisit⟩ := hcompile _ cs s' reports hc
    obtain ⟨v, hv, hnode, hcalls⟩ := hvisit panelNode rfl rfl
    have hpanel : v.definition = panel := by
      have hget := hvs.resolved hv
      rw [hnode] at hget
      exact (Option.some.inj hget).symm
    have hharmless : v.Harmless := by
      intro _ p hp t ht
      rw [hnode] at ht
      rw [hpanel] at hp
      have hatom := List.all_eq_true.1 hatoms p hp
      rw [ht] at hatom
      exact hatom
    obtain ⟨f, hread, hlength⟩ := hback.statement v hv (by rw [hpanel]; rfl) hharmless
    rw [hcalls] at hread
    refine ⟨cs, s', reports, rfl, f, _, hread, ?_⟩
    rw [List.length_map, hlength, hpanel]
    rfl

/-- A definition with a selection of a declared type. -/
def gauge : Definition where
  name := "gauge"
  params := [{ name := "mode", kind := .select, options := { type := "int" } }]

/-- What is selected is copied even if it is no literal, and is then read as two arguments. -/
theorem selection_adds_argument :
    (∃ a c', Yields (Argument.listOfValues .standard gauge (.table [("mode", "1, 2")]) true)
      .empty [a] c' ∧ ∀ p ∈ gauge.params, ¬ Argument.IsLiteral p a.operand.render) ∧
    ∃ cs s' reports, (⟨[("gauge", gauge)], .empty⟩ : Workbench).compile .standard
        [.mk "gauge" false [("mode", "1, 2")] []] = (.ok cs, s', reports) ∧
      readCalls (renderCalls cs) = some [("gauge", ["1", " 2"])] ∧ gauge.params.length = 1 := by
  refine ⟨⟨_, _, rfl, List.forall_mem_singleton.2 ?_⟩, _, _, _, rfl, by decide +kernel, rfl⟩
  rw [Argument.IsLiteral, if_neg (by decide)]
  decide +kernel

end Compile

end NodeScript
