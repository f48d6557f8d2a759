import NodeScript.Proofs.Interruption
import NodeScript.Proofs.Messages
import NodeScript.Proofs.Reordering
import NodeScript.Proofs.Shapes
import NodeScript.Proofs.Writing

/-!
# Why compilations fail

A compilation reports what it cannot do: a definition is not found, a parameter lacks its value, or
something cannot be written. Otherwise it stumbles over data that was read without a check, which is
a fault. `Compile.Stumbles` says what such data is and where it is met: among the parameters, the
code and the variables of the root, or at a node that the compilation comes to. The main lemma is
that a compilation meets a fault if it stumbles, and only then. Definitions that are regular, with a
header and values that are, give no occasion for it.
-/

namespace NodeScript

/-! ### Expansion of texts -/

namespace Placeholder

/-- An expansion comes out with something in `Q`, or stops for another reason than a fault. -/
def Clean {α : Type} (Q : α → Prop) (r : Except Stop α) : Prop :=
  (∀ a, r = .ok a → Q a) ∧ ∀ stop, r = .error stop → ∀ f, stop.1 ≠ .fault f

section

variable {α β : Type} {Q : α → Prop} {Q' : β → Prop}

lemma clean_ok {a : α} (ha : Q a) : Clean Q (.ok a) := by
  refine ⟨?_, ?_⟩
  · rintro _ ⟨⟩
    exact ha
  · rintro _ ⟨⟩

lemma clean_error {stop : Stop} (hstop : ∀ f, stop.1 ≠ .fault f) : Clean Q (.error stop) := by
  refine ⟨?_, ?_⟩
  · rintro _ ⟨⟩
  · rintro _ ⟨⟩
    exact hstop

lemma Clean.bind {r : Except Stop α} {g : α → Except Stop β} (hr : Clean Q r)
    (hg : ∀ a, Q a → Clean Q' (g a)) : Clean Q' (r >>= g) := by
  cases r with
  | error stop => exact clean_error (hr.2 stop rfl)
  | ok a => exact hg a (hr.1 a rfl)

end

/-- Pieces that are texts. -/
def AllTexts (ps : List Piece) : Prop :=
  ∀ p ∈ ps, p.isSome = true

lemma allTexts_cons {p : Piece} {ps : List Piece} (hp : p.isSome = true) (hps : AllTexts ps) :
    AllTexts (p :: ps) :=
  List.forall_mem_cons.2 ⟨hp, hps⟩

lemma exists_join? {ps : List Piece} (hps : AllTexts ps) : ∃ cs, join? ps = some cs := by
  have hall : ∃ css, ps.mapM id = some css := by
    induction ps with
    | nil => exact ⟨[], rfl⟩
    | cons p ps ih =>
      obtain ⟨hp, hrest⟩ := List.forall_mem_cons.1 hps
      obtain ⟨cs, rfl⟩ := Option.isSome_iff_exists.1 hp
      obtain ⟨css, hcss⟩ := ih hrest
      exact ⟨cs :: css, by rw [List.mapM_cons, hcss]; rfl⟩
  obtain ⟨css, hcss⟩ := hall
  exact ⟨css.flatten, by rw [join?, hcss]; rfl⟩

variable {trail : Trail} {resolve : String → Except Stop (Option Piece)}

lemma clean_expandPieces
    (hresolve : ∀ key, Clean (fun found => ∀ p, found = some p → p.isSome = true) (resolve key))
    (name : Option (List Piece)) (ps : List Piece) (hname : ∀ qs, name = some qs → AllTexts qs)
    (hps : AllTexts ps) : Clean AllTexts (expandPieces trail resolve name ps) := by
  have hnil : ∀ qs, some [] = some qs → AllTexts qs := by
    rintro _ ⟨⟩ p hp
    cases hp
  have hnone : ∀ qs : List Piece, none = some qs → AllTexts qs := by
    rintro _ ⟨⟩
  -- the pieces of a name that is not closed yet are texts as well
  fun_induction expandPieces trail resolve name ps with
  | case1 => exact clean_ok hps
  | case2 name => exact clean_ok (allTexts_cons rfl (hname name rfl))
  | case3 p rest hp ih => exact ih hnil (List.forall_mem_cons.1 hps).2
  | case4 p rest hp ih =>
    obtain ⟨hp, hrest⟩ := List.forall_mem_cons.1 hps
    exact (ih hnone hrest).bind fun done hdone => clean_ok (allTexts_cons hp hdone)
  | case5 name p rest hp hjoin =>
    obtain ⟨cs, hcs⟩ := exists_join? (hname name rfl)
    cases hcs.symm.trans hjoin
  | case6 name p rest hp key hjoin ihu ihk =>
    obtain ⟨-, hrest⟩ := List.forall_mem_cons.1 hps
    refine (hresolve _).bind fun found hfound => ?_
    cases found with
    | none =>
      refine (ihu hnil hrest).bind fun done hdone => ?_
      exact clean_ok (allTexts_cons rfl (allTexts_cons rfl hdone))
    | some value =>
      refine (ihk hnone hrest).bind fun done hdone => ?_
      exact clean_ok (allTexts_cons (hfound value rfl) hdone)
  | case7 name p rest hp hlimit ih =>
    obtain ⟨hp, hrest⟩ := List.forall_mem_cons.1 hps
    refine (ih hnone hrest).bind fun done hdone => clean_ok (allTexts_cons rfl ?_)
    exact List.forall_mem_append.2 ⟨hname name rfl, allTexts_cons hp hdone⟩
  | case8 name p rest hp hlimit ih =>
    obtain ⟨hp, hrest⟩ := List.forall_mem_cons.1 hps
    refine ih ?_ hrest
    rintro _ ⟨⟩
    exact List.forall_mem_append.2 ⟨hname name rfl, List.forall_mem_singleton.2 hp⟩

lemma clean_expandWith
    (hresolve : ∀ key, Clean (fun found => ∀ p, found = some p → p.isSome = true) (resolve key))
    {v : Value} (hv : v.IsText) : Clean Value.IsText (expandWith trail resolve v) := by
  obtain ⟨s, rfl⟩ := hv
  rw [expandWith]
  split_ifs
  · exact clean_ok ⟨s, rfl⟩
  · dsimp only [pieces?]
    split_ifs
    · exact clean_ok ⟨s, rfl⟩
    · have hps : AllTexts (s.toList.map fun c => some [c]) := by
        intro p hp
        obtain ⟨c, -, rfl⟩ := List.mem_map.1 hp
        rfl
      have hnone : ∀ qs : List Piece, none = some qs → AllTexts qs := by
        rintro _ ⟨⟩
      refine (clean_expandPieces hresolve none _ hnone hps).bind fun done hdone => ?_
      obtain ⟨cs, hcs⟩ := exists_join? hdone
      rw [hcs]
      exact clean_ok ⟨_, rfl⟩

lemma clean_expandAt {values : Table Value Value}
    (hvalues : ∀ key v, values.get? (.text key) = some v → v.IsText) (room : Nat) (trail : Trail)
    {v : Value} (hv : v.IsText) : Clean Value.IsText (expandAt values room trail v) := by
  induction room generalizing trail v with
  | zero =>
    refine clean_expandWith (fun key => ?_) hv
    split_ifs
    · exact clean_ok (by simp)
    · exact clean_error (by simp)
    · exact clean_error (by simp)
  | succ room ih =>
    refine clean_expandWith (fun key => ?_) hv
    split
    · exact clean_ok (by simp)
    · next w hget =>
      split_ifs
      · exact clean_error (by simp)
      · refine (ih (trail ++ [key]) (hvalues key w hget)).bind fun expanded hexpanded => ?_
        obtain ⟨s, rfl⟩ := hexpanded
        exact clean_ok (by rintro _ ⟨⟩; rfl)

/-- A text is expanded with texts, unless it refers to itself or too deep. -/
lemma expand_ne_fault {values : Table Value Value}
    (hvalues : ∀ key v, values.get? (.text key) = some v → v.IsText) {v : Value} (hv : v.IsText)
    (f : Fault) : expand values v ≠ .error (.fault f) := by
  intro h
  have hclean := clean_expandAt hvalues (depthLimit - List.length ([] : Trail)) [] hv
  rw [expand, expandFrom] at h
  cases hstop : expandAt values (depthLimit - List.length ([] : Trail)) [] v with
  | ok w =>
    rw [hstop] at h
    cases h
  | error stop =>
    rw [hstop] at h
    exact hclean.2 stop hstop f (Except.error.inj h)

end Placeholder

/-! ### Failures of compilations -/

/-- Whether a failure is about what a compilation is to write: a list or variables that cannot be
written, or code of the user that lacks its parameters. -/
def Failure.isUnwritable : Failure → Bool
  | .listUnwritable _ _ _ | .variablesUnwritable _ _ | .sourceIncomplete _ => true
  | _ => false

/-- Whether a compilation can fail so: it meets a fault, lacks a definition or a value, or has
something to write that it cannot. -/
def Failure.isOfCompilation : Failure → Bool
  | .fault _ | .notFound _ _ | .required _ _ _ _ _ => true
  | f => f.isUnwritable

lemma Failure.isOfCompilation_of_isUnwritable {f : Failure} (hf : f.isUnwritable = true) :
    f.isOfCompilation = true := by
  cases f with
  | listUnwritable | variablesUnwritable | sourceIncomplete => rfl
  | _ => cases hf

/-- A value that can be a key. -/
def Value.IsKey (v : Value) : Prop :=
  v.checkKey = .ok ()

/-- A header that a compilation can use: its language can be a key and its messages can be made. -/
structure Header.Regular (h : Header) : Prop where
  lang : h.lang.IsKey
  fills : h.Fills

lemma Value.IsText.isKey {v : Value} (hv : v.IsText) : v.IsKey := by
  obtain ⟨s, rfl⟩ := hv
  rfl

lemma Value.IsText.orElse {v w : Value} (hv : v.IsText) (hw : w.IsText) : (v.orElse w).IsText := by
  rw [Value.orElse]
  split_ifs
  · exact hv
  · exact hw

lemma Table.IsTexts.isText {t : Table Value Value} (ht : t.IsTexts) {key : String} {v : Value}
    (hget : t.get? (.text key) = some v) : v.IsText := by
  obtain ⟨_, s, heq⟩ := ht.texts _ (ht.get?_eq_some_iff.1 hget)
  cases heq
  exact ⟨s, rfl⟩

/-- The language table of a key is found, or empty. -/
lemma Definition.langTable_of_isKey (d : Definition) {lang : Value} (hlang : lang.IsKey) :
    d.langTable lang = .ok ((d.langs.get? lang).getD []) := by
  rw [langTable, hlang]
  rfl

section Titles

variable {h : Header} {d : Definition} {p : ParamSpec}

/-- A title that cannot be localized meets a fault. -/
lemma exists_fault_of_localizeTitle {title lang : Value} {e : Failure}
    (he : localizeTitle title d lang = .error e) : ∃ f, e = .fault f := by
  cases hlang : d.langTable lang with
  | error f =>
    rw [localizeTitle_of_error rfl hlang] at he
    cases he
    exact ⟨f, rfl⟩
  | ok texts =>
    rw [localizeTitle_eq rfl hlang] at he
    split at he
    · cases he
    · cases he
      exact ⟨_, rfl⟩
    · cases he

lemma exists_localizeTitle {title lang : Value} (hd : d.HasTextLangs) (htitle : title.IsText)
    (hlang : lang.IsKey) : ∃ v, localizeTitle title d lang = .ok v := by
  have htable := d.langTable_of_isKey hlang
  have hdefault := d.langTable_of_isKey (Value.IsText.isKey ⟨Definition.defaultLang, rfl⟩)
  have hmerged := (hd.langTable hdefault).1.merge (hd.langTable htable).1.texts
  rw [localizeTitle_eq rfl htable]
  split
  · exact ⟨_, rfl⟩
  · next f hf =>
    exact absurd hf (Placeholder.expand_ne_fault (fun _ _ hget => hmerged.isText hget) htitle f)
  · exact ⟨_, rfl⟩

namespace Argument

/-- A parameter without a value is reported if its message can be made, with the titles in the
language of the user. -/
lemma requiredFailure_eq_required_iff {m : String} {field script name owner : Value} :
    requiredFailure h d p = .required m field script name owner ↔
      localizeTitle p.displayTitle d h.lang = .ok field ∧
        localizeTitle d.displayTitle d h.lang = .ok script ∧
        h.message Header.fieldKey [("field", field), ("script", script)] = .ok m ∧
        name = p.name ∧ owner = d.name := by
  rw [requiredFailure]
  cases hfield : localizeTitle p.displayTitle d h.lang with
  | error e =>
    obtain ⟨f, rfl⟩ := exists_fault_of_localizeTitle hfield
    simp [bind, Except.bind]
  | ok field' =>
    cases hscript : localizeTitle d.displayTitle d h.lang with
    | error e =>
      obtain ⟨f, rfl⟩ := exists_fault_of_localizeTitle hscript
      simp [bind, Except.bind]
    | ok script' =>
      cases hmessage : h.message Header.fieldKey [("field", field'), ("script", script')] with
      | error f =>
        simp only [bind, Except.bind, hmessage, Except.ok.injEq]
        constructor
        · intro heq
          cases heq
        · rintro ⟨rfl, rfl, hm, -, -⟩
          cases hmessage.symm.trans hm
      | ok m' =>
        simp only [bind, Except.bind, hmessage, Except.ok.injEq]
        constructor
        · intro heq
          cases heq
          exact ⟨rfl, rfl, hmessage, rfl, rfl⟩
        · rintro ⟨rfl, rfl, hm, rfl, rfl⟩
          cases hmessage.symm.trans hm
          rfl

/-- A parameter without a value can be reported: its title and that of its definition can be
localized, and the message can be filled in with them. -/
def Reportable (h : Header) (d : Definition) (p : ParamSpec) : Prop :=
  ∃ field script m, localizeTitle p.displayTitle d h.lang = .ok field ∧
    localizeTitle d.displayTitle d h.lang = .ok script ∧
    h.message Header.fieldKey [("field", field), ("script", script)] = .ok m

/-- A parameter without a value is reported if it can be, and is a fault else. -/
lemma requiredFailure_cases :
    Reportable h d p ∧ (∃ m field script, requiredFailure h d p =
      .required m field script p.name d.name) ∨
    ¬ Reportable h d p ∧ ∃ f, requiredFailure h d p = .fault f := by
  by_cases hreport : Reportable h d p
  · obtain ⟨field, script, m, hfield, hscript, hm⟩ := hreport
    exact .inl ⟨⟨field, script, m, hfield, hscript, hm⟩, m, field, script,
      requiredFailure_eq_required_iff.2 ⟨hfield, hscript, hm, rfl, rfl⟩⟩
  · refine .inr ⟨hreport, ?_⟩
    rw [requiredFailure]
    cases hfield : localizeTitle p.displayTitle d h.lang with
    | error e => exact exists_fault_of_localizeTitle hfield
    | ok field =>
      cases hscript : localizeTitle d.displayTitle d h.lang with
      | error e => exact exists_fault_of_localizeTitle hscript
      | ok script =>
        cases hm : h.message Header.fieldKey [("field", field), ("script", script)] with
        | error f =>
          simp only [bind, Except.bind, hm]
          exact ⟨f, rfl⟩
        | ok m => exact absurd ⟨field, script, m, hfield, hscript, hm⟩ hreport

/-- With texts for names and titles, and a header that a compilation can use, a parameter can be
reported. -/
lemma reportable_of_texts (hh : h.Regular) (hd : d.HasTextLangs) (hname : d.name.IsText)
    (htitle : d.title.IsText) (hpname : p.name.IsText) (hptitle : p.title.IsText) :
    Reportable h d p := by
  obtain ⟨field, hfield⟩ := exists_localizeTitle hd (hptitle.orElse hpname) hh.lang
  obtain ⟨script, hscript⟩ := exists_localizeTitle hd (htitle.orElse hname) hh.lang
  obtain ⟨m, hm⟩ := hh.fills.exists_field_message field script
  exact ⟨field, script, m, hfield, hscript, hm⟩

end Argument

end Titles

/-! ### What a compilation fails for -/

/-- A pass over a list fails at the first of its items that fails, in the state that the pass over
the items before it leaves. -/
lemma stops_mapM_iff {σ ε α β : Type} {f : α → ExceptT ε (StateM σ) β} {as : List α} {s s' : σ}
    {e : ε} : Stops (as.mapM f) s e s' ↔
      ∃ before a after bs s₁, as = before ++ a :: after ∧ Yields (before.mapM f) s bs s₁ ∧
        Stops (f a) s₁ e s' := by
  induction as generalizing s with
  | nil =>
    rw [List.mapM_nil, stops_pure_iff, false_iff]
    rintro ⟨before, a, after, _, _, hsplit, -⟩
    simp at hsplit
  | cons a as ih =>
    rw [List.mapM_cons, stops_bind_iff]
    constructor
    · rintro (hstops | ⟨b, s₁, hyields, hstops⟩)
      · exact ⟨[], a, as, [], s, rfl, yields_pure_iff.2 ⟨rfl, rfl⟩, hstops⟩
      · obtain hstops | ⟨_, _, -, hstops⟩ := stops_bind_iff.1 hstops
        · obtain ⟨before, a', after, bs, s₂, rfl, hbefore, hstops⟩ := ih.1 hstops
          refine ⟨a :: before, a', after, b :: bs, s₂, rfl, ?_, hstops⟩
          rw [List.mapM_cons]
          exact yields_bind_iff.2 ⟨b, s₁, hyields,
            yields_bind_iff.2 ⟨bs, s₂, hbefore, yields_pure_iff.2 ⟨rfl, rfl⟩⟩⟩
        · exact (stops_pure_iff.1 hstops).elim
    · rintro ⟨before, a', after, bs, s₁, hsplit, hbefore, hstops⟩
      cases before with
      | nil =>
        cases hsplit
        obtain ⟨-, rfl⟩ := yields_pure_iff.1 hbefore
        exact .inl hstops
      | cons a₀ before =>
        cases hsplit
        simp only [List.mapM_cons, yields_bind_iff, yields_pure_iff] at hbefore
        obtain ⟨b, s₂, hyields, bs', _, hbefore, rfl, rfl⟩ := hbefore
        refine .inr ⟨b, s₂, hyields, stops_bind_iff.2 (.inl (ih.2 ?_))⟩
        exact ⟨before, a', after, bs', s₁, rfl, hbefore, hstops⟩

namespace Argument

variable {h : Header} {d : Definition} {p : ParamSpec} {raw : Value} {intern : Bool}
  {c c' : Constants} {e : Failure} {room : Option Nat}

/-- Whether a value counts as missing: for a list one that has no items, else an empty text. -/
def isMissing (k : ParamKind) (raw : Value) : Bool :=
  match k with
  | .list => (listItems? raw).isNone
  | _ => raw.normalized.isEmpty

/-- Whether nothing stands in for a missing value of a required parameter. The default of a list
does not count; a checkbox and a selection are content without a value. -/
def isUncovered (p : ParamSpec) : Bool :=
  match p.kind with
  | .textarea | .singleText | .number => p.options.default.isEmpty
  | .list => true
  | .checkbox | .select => false

/-- Whether a value does not meet the demand of its parameter. -/
def isUnmet (p : ParamSpec) (raw : Value) : Bool :=
  p.options.required && isMissing p.kind raw && isUncovered p

lemma textOrDefault_eq_error_iff {s : String} :
    textOrDefault h d p s = .error e ↔
      (p.options.required && s.isEmpty && p.options.default.isEmpty) = true ∧
        e = requiredFailure h d p := by
  rw [textOrDefault]
  cases s.isEmpty <;> cases p.options.default.isEmpty <;> cases p.options.required <;>
    simp [eq_comm]

lemma not_stops_textOperand {s : String} : ¬ Stops (textOperand intern s) c e c' := by
  cases intern with
  | false => exact stops_pure_iff.1
  | true => exact (stops_iff_false (w := textOperand true s) rfl).1

lemma not_stops_ofPlain {s : String} : ¬ Stops (ofPlain p intern s) c e c' := by
  rw [ofPlain, stops_bind_iff]
  rintro (hstops | ⟨o, c₁, -, hstops⟩)
  · exact not_stops_textOperand hstops
  · split at hstops
    · split_ifs at hstops <;> exact stops_pure_iff.1 hstops
    · exact stops_pure_iff.1 hstops

lemma stops_ofText_iff :
    Stops (ofText h d p raw intern) c e c' ↔
      textOrDefault h d p raw.normalized = .error e ∧ c' = c := by
  rw [ofText, stops_bind_iff, stops_liftFailure_iff]
  refine or_iff_left ?_
  rintro ⟨s, c₁, -, hstops⟩
  by_cases hsource : d.isSourceCode = true
  · rw [if_pos hsource] at hstops
    exact stops_pure_iff.1 hstops
  · rw [if_neg hsource] at hstops
    exact not_stops_ofPlain hstops

/-- An argument that is one text, once this is made, does not fail. -/
lemma not_stops_ofOperand {s type : String} {name : Value} :
    ¬ Stops (do return (⟨name, type, ← textOperand intern s⟩ : Argument)) c e c' := by
  intro hstops
  obtain hstops | ⟨o, c₂, -, hstops⟩ := stops_bind_iff.1 hstops
  · exact not_stops_textOperand hstops
  · exact stops_pure_iff.1 hstops

lemma not_stops_ofSelect : ¬ Stops (ofSelect p raw intern) c e c' := by
  rw [ofSelect]
  split_ifs
  · exact stops_pure_iff.1
  · exact not_stops_ofOperand

lemma ofNumber_eq_error_iff :
    ofNumber h d p raw = .error e ↔ textOrDefault h d p raw.normalized = .error e := by
  rw [ofNumber, Except.bind_eq_error_iff]
  refine or_iff_left ?_
  rintro ⟨s, -, ⟨⟩⟩

/-- A list without items fails if it is required, and one with items if it cannot be written. -/
lemma stops_ofList_iff :
    Stops (ofList h d p raw intern room) c e c' ↔
      ((p.options.required && (listItems? raw).isNone) = true ∧ e = requiredFailure h d p ∨
        ∃ items cause, listItems? raw = some items ∧
          Json.write .plain (.list items) room = .error cause ∧
          e = .ofList cause p.name d.name) ∧ c' = c := by
  rw [ofList]
  cases listItems? raw with
  | none =>
    cases p.options.required with
    | false => exact iff_of_false not_stops_ofOperand (by simp)
    | true =>
      dsimp only
      rw [if_pos rfl, stops_bind_iff]
      simp [stops_throw_iff, yields_throw_iff]
  | some items =>
    dsimp only
    cases hwrite : Json.write .plain (.list items) room with
    | ok s => exact iff_of_false not_stops_ofOperand (by simp [hwrite])
    | error cause =>
      rw [stops_bind_iff]
      simp [stops_throw_iff, yields_throw_iff, hwrite]

/-- An argument fails for want of a value, or because a list cannot be written. The constants stay
as they are. -/
lemma stops_ofValue_iff :
    Stops (ofValue h d p raw intern room) c e c' ↔
      (isUnmet p raw = true ∧ e = requiredFailure h d p ∨
        p.kind = .list ∧ ∃ items cause, listItems? raw = some items ∧
          Json.write .plain (.list items) room = .error cause ∧
          e = .ofList cause p.name d.name) ∧ c' = c := by
  rw [ofValue, isUnmet, isUncovered]
  cases hk : p.kind with
  | checkbox => simp [stops_pure_iff]
  | textarea => simp [stops_ofText_iff, textOrDefault_eq_error_iff, isMissing]
  | singleText => simp [stops_ofText_iff, textOrDefault_eq_error_iff, isMissing]
  | select => simp [not_stops_ofSelect]
  | number =>
    simp [stops_liftFailure_iff, ofNumber_eq_error_iff, textOrDefault_eq_error_iff, isMissing]
  | list => simp [stops_ofList_iff, isMissing]

/-- Where there is room for any list, a list that cannot be written is reported. -/
lemma eq_of_stops_ofValue (hstops : Stops (ofValue h d p raw intern) c e c') :
    e = requiredFailure h d p ∨ e.isUnwritable = true := by
  obtain ⟨⟨-, he⟩ | ⟨-, items, cause, -, hwrite, rfl⟩, -⟩ := stops_ofValue_iff.1 hstops
  · exact .inl he
  · right
    cases cause with
    | tooNested => exact absurd hwrite (Json.writeValue_ne_tooNested _ le_rfl)
    | _ => rfl

lemma isOfCompilation_of_listOfValues {values : Value}
    (hstops : Stops (listOfValues h d values intern) c e c') : e.isOfCompilation = true := by
  obtain ⟨before, p, after, args, c₁, -, -, hstops⟩ := stops_mapM_iff.1 hstops
  obtain hlookup | ⟨raw, c₂, -, hvalue⟩ := stops_bind_iff.1 hstops
  · obtain ⟨⟨f, -, rfl⟩, -⟩ := stops_liftFault_iff.1 hlookup
    rfl
  · obtain rfl | hunwritable := eq_of_stops_ofValue hvalue
    · obtain ⟨-, m, field, script, hrequired⟩ | ⟨-, f, hf⟩ :=
        requiredFailure_cases (h := h) (d := d) (p := p)
      · rw [hrequired]
        rfl
      · rw [hf]
        rfl
    · exact Failure.isOfCompilation_of_isUnwritable hunwritable

/-- What the arguments of a definition stumble over, among given values. The parameters before the
one that is to blame have their arguments. -/
inductive Stumbles (h : Header) (d : Definition) (values : Value) (intern : Bool) (c : Constants) :
    Prop
  /-- The values are no object, or the name of a parameter can be no key. -/
  | lookup {before after : List ParamSpec} {p : ParamSpec} {args : List Argument} {c' : Constants}
      (params : d.params = before ++ p :: after)
      (made : Yields (ofParams h d (values.orElse (.table [])) intern before) c args c')
      (unread : ¬ values.IsObject ∨ ¬ p.name.IsKey)
  /-- A required value is missing, and this cannot be reported. -/
  | demand {before after : List ParamSpec} {p : ParamSpec} {args : List Argument} {c' : Constants}
      {raw : Value} (params : d.params = before ++ p :: after)
      (made : Yields (ofParams h d (values.orElse (.table [])) intern before) c args c')
      (found : rawValue (values.orElse (.table [])) p = .ok raw) (unmet : isUnmet p raw = true)
      (unspoken : ¬ Reportable h d p)

lemma not_stumbles_of_regular {values : Value} (hh : h.Regular) (hd : d.Regular)
    (hvalues : values.IsObject) : ¬ Stumbles h d values intern c := by
  rintro (@⟨_, _, p, _, _, hparams, -, hunread⟩ | @⟨_, _, p, _, _, _, hparams, -, -, -, hunspoken⟩)
  all_goals
    have hp : p ∈ d.params := hparams ▸ List.mem_append_right _ List.mem_cons_self
    obtain ⟨hname, htitle⟩ := hd.params p hp
  · exact hunread.elim (absurd hvalues) (absurd hname.isKey)
  · exact hunspoken (reportable_of_texts hh hd.langs hd.name hd.title hname htitle)

end Argument

/-! ### What variables stumble over -/

namespace Predefined

variable {d : Definition} {lang : Value} {c c' : Constants} {e : Failure}

/-- What the variables of a definition stumble over: a language that can be no key, or a name in the
default table or in that of the language that is no text. -/
inductive Stumbles (d : Definition) (lang : Value) : Prop
  | language (unkeyable : ¬ lang.IsKey)
  | name {entry : Value × Value}
      (mem : entry ∈ (d.langs.get? (.text Definition.defaultLang)).getD [] ∨
        entry ∈ (d.langs.get? lang).getD [])
      (unnamed : ¬ entry.1.IsText)

/-- Variables fail because they cannot be merged, are nested too deep or cannot be written. -/
lemma cases_of_stops_build (hstops : Stops (build d lang) c e c') :
    (∃ f, merge d lang = .error f ∧ e = .fault f) ∨
      (∃ vars, merge d lang = .ok vars ∧ nestingLimit < Value.heightEntries vars ∧
        e = .fault .tooNested) ∨
      e.isUnwritable = true := by
  rw [build, stops_bind_iff] at hstops
  obtain hstops | ⟨vars, c₁, hvars, hstops⟩ := hstops
  · exact .inl (stops_liftFault_iff.1 hstops).1
  · obtain ⟨hvars, -⟩ := yields_liftFault_iff.1 hvars
    right
    by_cases hempty : vars.isEmpty = true
    · rw [if_pos hempty] at hstops
      exact (stops_pure_iff.1 hstops).elim
    · rw [if_neg hempty] at hstops
      dsimp only at hstops
      split_ifs at hstops with hheight
      · obtain hstops | ⟨_, _, hthrow, -⟩ := stops_bind_iff.1 hstops
        · exact .inl ⟨vars, hvars, hheight, (stops_throw_iff.1 hstops).1⟩
        · exact (yields_throw_iff.1 hthrow).elim
      · right
        split at hstops
        · exact ((stops_iff_false rfl).1 hstops).elim
        · obtain ⟨rfl, -⟩ := stops_throw_iff.1 hstops
          rfl

lemma isOfCompilation_of_build (hstops : Stops (build d lang) c e c') :
    e.isOfCompilation = true := by
  obtain ⟨f, -, rfl⟩ | ⟨vars, -, -, rfl⟩ | hunwritable := cases_of_stops_build hstops
  · rfl
  · rfl
  · exact Failure.isOfCompilation_of_isUnwritable hunwritable

lemma not_stumbles_of_texts (hd : d.HasTextLangs) (hlang : lang.IsKey) : ¬ Stumbles d lang := by
  have htable : ∀ lang entry, entry ∈ (d.langs.get? lang).getD [] → entry.1.IsText := by
    intro lang entry hmem
    cases hget : d.langs.get? lang with
    | none =>
      rw [hget] at hmem
      cases hmem
    | some t =>
      rw [hget] at hmem
      obtain ⟨k, hk, -⟩ := Table.exists_mem_of_get? hget
      obtain ⟨s, r, heq⟩ := (hd (k, t) hk).texts entry hmem
      exact ⟨s, congrArg Prod.fst heq⟩
  rintro (hkey | ⟨hmem, hname⟩)
  · exact hkey hlang
  · exact hname (hmem.elim (htable _ _) (htable _ _))

end Predefined

/-- Nodes lead where each of them leads. -/
lemma Catalogue.Reach.of_nodes {defs : Catalogue} {ns ms : List Node}
    (hms : ∀ m, Node.Active (fun _ => True) ms m → defs.Reach ns m.name) {name : Value}
    (hname : defs.Reach ms name) : defs.Reach ns name := by
  induction hname with
  | node active => exact hms _ active
  | tree _ found active ih => exact .tree ih found active

/-! ### What compilations stumble over -/

namespace Compile

variable {h : Header} {defs : Catalogue} {root d : Definition} {values : Value} {n : Node}
  {ns : List Node} {s s' : Draft} {e : Failure} {opened : List (Value × String)}

/-- What a compilation stumbles over at a node that it comes to. -/
inductive StumblesAt (h : Header) (defs : Catalogue) (n : Node) (s : Draft) : Prop
  /-- The name of the node can be no key. -/
  | name (unkeyable : ¬ n.name.IsKey)
  /-- No definition has the name, and this cannot be reported. -/
  | unknown (missing : Table.get? defs n.name = none)
      (unspoken : ∀ m, h.message Header.openKey [("name", n.name)] ≠ .ok m)
  /-- The arguments stumble. -/
  | argument {d : Definition} (resolved : resolve h defs n.name = .ok d)
      (stumbles : Argument.Stumbles h d (.table n.values) true s.constants)
  /-- The name of a new definition is no text. -/
  | identifier {d : Definition} {args : List Argument} {s₁ : Draft}
      (uses : Uses h defs n d args s s₁) (ordinary : d.isSourceCode = false)
      (new : s₁.linked.get? d.name = none) (unnamed : ¬ d.name.IsText)
  /-- The code of a new definition is no text. -/
  | code {d : Definition} {args : List Argument} {id : String} {s₁ s₂ s₃ : Draft}
      {below : List Call} {vs : List Visit} (uses : Uses h defs n d args s s₁)
      (ordinary : d.isSourceCode = false) (new : s₁.linked.get? d.name = none)
      (link : Yields (Draft.link d) s₁ id s₂)
      (children : Compiles h defs n.children s₂ below s₃ vs) (noText : ¬ d.code.IsText)
  /-- The variables of a new definition with a tree stumble. -/
  | predefined {d : Definition} {args : List Argument} {id : String} {s₁ s₂ s₃ : Draft}
      {below : List Call} {vs : List Visit} (uses : Uses h defs n d args s s₁)
      (ordinary : d.isSourceCode = false) (new : s₁.linked.get? d.name = none)
      (link : Yields (Draft.link d) s₁ id s₂)
      (children : Compiles h defs n.children s₂ below s₃ vs) (text : d.code.IsText)
      (tree : d.tree ≠ []) (stumbles : Predefined.Stumbles d h.lang)

/-- What the compilation of a root stumbles over. -/
inductive Stumbles (h : Header) (defs : Catalogue) (root : Definition) (values : Value) : Prop
  /-- The arguments of the root stumble. -/
  | arguments (stumbles : Argument.Stumbles h root values false .empty)
  /-- The code of the root is no text. -/
  | code {args : List Argument} {c : Constants}
      (made : Yields (Argument.listOfValues h root values false) .empty args c)
      (noText : ¬ root.code.IsText)
  /-- The variables of the root stumble. -/
  | predefined {args : List Argument} {c : Constants}
      (made : Yields (Argument.listOfValues h root values false) .empty args c)
      (text : root.code.IsText) (stumbles : Predefined.Stumbles root h.lang)
  /-- Compilation comes to a node and stumbles there. -/
  | node {args : List Argument} {c c' : Constants} {predefined : Option Nat} {n : Node}
      {s : Draft} {opened : List (Value × String)}
      (made : Yields (Argument.listOfValues h root values false) .empty args c)
      (text : root.code.IsText) (built : Yields (Predefined.build root h.lang) c predefined c')
      (comes : Comes h defs root.tree { Draft.empty with constants := c' } n s opened)
      (stumbles : StumblesAt h defs n s)

lemma stops_link_iff :
    Stops (Draft.link d) s e s' ↔
      (∃ f, Identifier.ofValue d.name = .error f ∧ e = .fault f) ∧ s' = s := by
  simp only [Draft.link, stops_bind_iff, stops_liftFault_iff, stops_get_iff, stops_set_iff,
    stops_pure_iff, and_false, exists_false, or_false]

/-- A name is not resolved because it can be no key, or because no definition has it. -/
lemma resolve_cases (h : Header) (defs : Catalogue) (name : Value) :
    (∃ d, resolve h defs name = .ok d ∧ name.IsKey ∧ Table.get? defs name = some d) ∨
    (∃ m, resolve h defs name = .error (.notFound m name) ∧ name.IsKey ∧
      Table.get? defs name = none ∧ h.message Header.openKey [("name", name)] = .ok m) ∨
    (∃ f, resolve h defs name = .error (.fault f)) ∧
      (¬ name.IsKey ∨ Table.get? defs name = none ∧
        ∀ m, h.message Header.openKey [("name", name)] ≠ .ok m) := by
  rw [resolve, Value.IsKey]
  cases name.checkKey with
  | error f => exact .inr (.inr ⟨⟨f, rfl⟩, .inl (by simp)⟩)
  | ok u =>
    cases Table.get? defs name with
    | some d => exact .inl ⟨d, rfl, rfl, rfl⟩
    | none =>
      right
      cases h.message Header.openKey [("name", name)] with
      | error f => exact .inr ⟨⟨f, rfl⟩, .inr ⟨rfl, by simp⟩⟩
      | ok m => exact .inl ⟨m, rfl, rfl, rfl, rfl⟩

lemma FailsAt.isOfCompilation (hf : FailsAt h defs n s e s' opened) : e.isOfCompilation = true := by
  cases hf with
  | unresolved unknown =>
    obtain ⟨d, hd, -⟩ | ⟨m, hm, -⟩ | ⟨⟨f, hf⟩, -⟩ := resolve_cases h defs n.name
    · cases hd.symm.trans unknown
    · cases hm.symm.trans unknown
      rfl
    · cases hf.symm.trans unknown
      rfl
  | uncoerced _ stops =>
    obtain ⟨c, hstops, -⟩ := stops_interning_iff.1 stops
    exact Argument.isOfCompilation_of_listOfValues hstops
  | incomplete => rfl
  | unlinked _ _ _ stops =>
    obtain ⟨⟨f, -, rfl⟩, -⟩ := stops_link_iff.1 stops
    rfl
  | unbuilt _ _ _ _ _ stops =>
    obtain ⟨⟨f, -, rfl⟩, -⟩ | ⟨-, stops⟩ := stops
    · rfl
    · rw [predefinedOf] at stops
      split_ifs at stops
      · exact (stops_pure_iff.1 stops).elim
      · obtain ⟨c, hstops, -⟩ := stops_interning_iff.1 stops
        exact Predefined.isOfCompilation_of_build hstops

/-- Compilation comes to nodes whose names the nodes that it begins with lead to. -/
lemma Comes.reach (hc : Comes h defs ns s n s' opened) : defs.Reach ns n.name := by
  -- what is below a node, or in the tree of its definition, is led to from the nodes that hold it
  have hbelow : ∀ {n : Node} {ns : List Node}, n.disabled = false →
      ∀ name, defs.Reach n.children name → defs.Reach (n :: ns) name := by
    intro n ns on name
    exact Catalogue.Reach.of_nodes fun m hm => .node (.under List.mem_cons_self on trivial hm)
  induction hc with
  | here on => exact .node (.top List.mem_cons_self on)
  | later _ _ ih => exact Catalogue.Reach.of_nodes (fun m hm => .node hm.tail) ih
  | underSource uses _ _ _ ih => exact hbelow uses.enabled _ ih
  | underFirst uses _ _ _ _ ih => exact hbelow uses.enabled _ ih
  | inTree uses _ _ _ _ _ _ _ ih =>
    refine Catalogue.Reach.of_nodes (fun m hm => ?_) ih
    exact .tree (.node (.top List.mem_cons_self uses.enabled)) (get?_of_resolve uses.resolved) hm

lemma isText_of_reach (hdefs : ∀ x ∈ defs, x.2.Regular) (hroot : root.Regular) {name : Value}
    (hname : defs.Reach root.tree name) : name.IsText := by
  cases hname with
  | node active => exact hroot.tree _ active
  | tree reach found active =>
    obtain ⟨k, hmem, -⟩ := Table.exists_mem_of_get? found
    exact (hdefs _ hmem).tree _ active

lemma not_stumblesAt_of_regular (hh : h.Regular) (hdefs : ∀ x ∈ defs, x.2.Regular)
    (hname : n.name.IsText) : ¬ StumblesAt h defs n s := by
  have hfound : ∀ {d}, resolve h defs n.name = .ok d → d.Regular := by
    intro d hd
    obtain ⟨k, hmem, -⟩ := Table.exists_mem_of_get? (get?_of_resolve hd)
    exact hdefs _ hmem
  intro hs
  cases hs with
  | name hkey => exact hkey hname.isKey
  | unknown _ hm =>
    obtain ⟨m, hm'⟩ := hh.fills.exists_open_message n.name
    exact hm m hm'
  | argument resolved stumbles =>
    exact Argument.not_stumbles_of_regular hh (hfound resolved) (fun _ => ⟨_, rfl⟩) stumbles
  | identifier uses _ _ unnamed => exact unnamed (hfound uses.resolved).name
  | code uses _ _ _ _ noText => exact noText (hfound uses.resolved).code
  | predefined uses _ _ _ _ _ _ stumbles =>
    exact Predefined.not_stumbles_of_texts (hfound uses.resolved).langs hh.lang stumbles

/-- A compilation of regular definitions does not stumble. -/
lemma not_stumbles_of_regular (hh : h.Regular) (hdefs : ∀ x ∈ defs, x.2.Regular)
    (hroot : root.Regular) (hvalues : values.IsObject) : ¬ Stumbles h defs root values := by
  intro hs
  cases hs with
  | arguments stumbles => exact Argument.not_stumbles_of_regular hh hroot hvalues stumbles
  | code _ noText => exact noText hroot.code
  | predefined _ _ stumbles =>
    exact Predefined.not_stumbles_of_texts hroot.langs hh.lang stumbles
  | node _ _ _ comes stumbles =>
    exact not_stumblesAt_of_regular hh hdefs (isText_of_reach hdefs hroot comes.reach) stumbles

end Compile

end NodeScript
