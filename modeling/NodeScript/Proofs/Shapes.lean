import NodeScript.Proofs.Coverage
import NodeScript.Proofs.Variables
import NodeScript.Settings

/-!
# Data of the declared shape

The data of a request is read without a declaration of its shape, and a fault tells what was wrong
with it. Most faults are of the classes that are foreseen for malformed data. Two are not: an object
is needed where something else is given, and a log level is infinite.

`Breaks` says of a reader that it meets one of these two, and `BreaksOff` says of the data of a
parameter, a definition or a header which of its members is to blame. Data of the declared shape
does not break off, and if it can be read it gives definitions that are `Regular`: texts where texts
are expected, names that can be keys, and language tables of texts.
-/

namespace NodeScript

/-! ### Shapes -/

namespace Value

/-- A text. -/
def IsText (v : Value) : Prop :=
  ∃ s, v = .text s

/-- An object, or nothing at all. -/
def IsObject (v : Value) : Prop :=
  v.isTruthy = true → ∃ t, v = .table t

/-- A number without end. -/
def IsInfinite (v : Value) : Prop :=
  ∃ x : Double, v = .real x ∧ x.isInfinite = true

/-- The name in a record is a text, if it is there. -/
def HasTextName (record : Table Value Value) : Prop :=
  ∀ v, record.get? (.text "name") = some v → v.IsText

end Value

/-- A record of a parameter with the members as they are declared. -/
structure ParamSpec.Shaped (record : Table Value Value) : Prop where
  name : Value.HasTextName record
  title : (Value.getD record "title" (.text "")).IsText
  options : (Value.getD record "options" .null).IsObject

/-- A node, or no record at all, with texts for the names of it and of all nodes below it. -/
inductive Node.Shaped : Value → Prop
  | node {record : Table Value Value} (name : Value.HasTextName record)
      (children : ∀ cs, (childData record).items = .ok cs → ∀ c ∈ cs, Shaped c) :
      Shaped (.table record)
  | other {v : Value} (noRecord : ∀ record, v ≠ .table record) : Shaped v

/-- Language tables, each of which maps texts to texts. -/
def Definition.LangsShaped (v : Value) : Prop :=
  v.isTruthy = true → ∃ langs, v = .table langs ∧ ∀ l ∈ langs, l.2.isTruthy = true →
    ∃ t, l.2 = .table t ∧ ∀ e ∈ t, e.1.IsText ∧ e.2.IsText

/-- A record of a definition with the members as they are declared. -/
structure Definition.Shaped (record : Table Value Value) : Prop where
  name : Value.HasTextName record
  title : (Value.getD record "title" (.text "")).IsText
  level : ¬ (levelData record).IsInfinite
  code : (Value.getD record "code" (.text "")).IsText
  params : ∀ items, paramData record = .ok items → ∀ spec, .table spec ∈ items →
    ParamSpec.Shaped spec
  tree : ∀ items, ((Value.getD record "tree" .null).orElse (.list [])).items = .ok items →
    ∀ v ∈ items, Node.Shaped v
  langs : LangsShaped (Value.getD record "langs" .null)

/-- A header with the members as they are declared, or nothing at all. -/
structure Header.Shaped (v : Value) : Prop where
  object : v.IsObject
  lang : ∀ record, v = .table record → (Value.getD record "lang" .null).isTruthy = true →
    (Value.getD record "lang" .null).IsText
  level : ∀ record, v = .table record → ¬ (Value.getD record "log_level" .null).IsInfinite

/-! ### Faults of readers -/

/-- Whether a fault is of a class that is foreseen in data that is malformed. -/
def Fault.isForeseen (f : Fault) : Bool :=
  match f.faultClass with
  | .lookup | .value | .kind => true
  | .operation | .range | .position | .room | .nesting => false

/-- A reader breaks off: it meets a fault that is not foreseen. -/
def Breaks {α : Type} (r : Except Fault α) : Prop :=
  ∃ f, r = .error f ∧ f.isForeseen = false

section

variable {α β : Type} {r : Except Fault α} {g : α → Except Fault β}

lemma not_breaks_pure (a : α) : ¬ Breaks (pure a : Except Fault α) := by
  rintro ⟨f, ⟨⟩, -⟩

lemma not_breaks_error {f : Fault} (hf : f.isForeseen = true) :
    ¬ Breaks (.error f : Except Fault α) := by
  rintro ⟨_, ⟨⟩, hf'⟩
  cases hf.symm.trans hf'

lemma breaks_bind_iff : Breaks (r >>= g) ↔ Breaks r ∨ ∃ a, r = .ok a ∧ Breaks (g a) := by
  cases r with
  | error f =>
    constructor
    · rintro ⟨_, ⟨⟩, hf⟩
      exact .inl ⟨f, rfl, hf⟩
    · rintro (⟨_, ⟨⟩, hf⟩ | ⟨_, ⟨⟩, -⟩)
      exact ⟨f, rfl, hf⟩
  | ok a =>
    constructor
    · exact fun h => .inr ⟨a, rfl, h⟩
    · rintro (h | ⟨_, ⟨⟩, h⟩)
      · exact absurd h (not_breaks_pure a)
      · exact h

/-- A reader that breaks off in neither of its parts does not break off. -/
lemma not_breaks_bind (hr : ¬ Breaks r) (hg : ∀ a, r = .ok a → ¬ Breaks (g a)) :
    ¬ Breaks (r >>= g) := by
  rw [breaks_bind_iff]
  rintro (h | ⟨a, ha, h⟩)
  · exact hr h
  · exact hg a ha h

/-- After a first part that does not break off, a reader breaks off in its second part. -/
lemma breaks_bind_iff_of_not (hr : ¬ Breaks r) :
    Breaks (r >>= g) ↔ ∃ a, r = .ok a ∧ Breaks (g a) := by
  rw [breaks_bind_iff, or_iff_right hr]

/-- A list breaks off at the first of its items that breaks off, if those before it are read. -/
lemma breaks_mapM_iff {as : List α} :
    Breaks (as.mapM g) ↔ ∃ before a after, as = before ++ a :: after ∧
      (∀ b ∈ before, (g b).isOk = true) ∧ Breaks (g a) := by
  induction as with
  | nil => exact iff_of_false (not_breaks_pure _) (by simp)
  | cons a as ih =>
    simp only [List.mapM_cons, breaks_bind_iff, not_breaks_pure, and_false, exists_false, or_false,
      ih]
    constructor
    · rintro (h | ⟨b, hb, before, a', after, rfl, hread, h⟩)
      · exact ⟨[], a, as, rfl, List.forall_mem_nil _, h⟩
      · exact ⟨a :: before, a', after, rfl, List.forall_mem_cons.2 ⟨isOk_of_eq_ok hb, hread⟩, h⟩
    · rintro ⟨before, a', after, heq, hread, h⟩
      cases before with
      | nil =>
        cases heq
        exact .inl h
      | cons b before =>
        cases heq
        obtain ⟨hb, hread⟩ := List.forall_mem_cons.1 hread
        obtain ⟨c, hc⟩ := exists_ok_of_isOk hb
        exact .inr ⟨c, hc, before, a', after, rfl, hread, h⟩

lemma not_breaks_mapM {as : List α} (hg : ∀ a ∈ as, ¬ Breaks (g a)) : ¬ Breaks (as.mapM g) := by
  rw [breaks_mapM_iff]
  rintro ⟨before, a, after, rfl, -, h⟩
  exact hg a (List.mem_append_right _ List.mem_cons_self) h

end

/-! ### Readers that do not break off -/

namespace Value

lemma not_breaks_entries (v : Value) : ¬ Breaks v.entries := by
  cases v with
  | table es => exact not_breaks_pure es
  | loop shape up => cases shape <;> exact not_breaks_error rfl
  | _ => exact not_breaks_error rfl

lemma orElse_eq_table {v : Value} {t : Table Value Value} (h : v.orElse (.table []) = .table t) :
    v = .table t ∨ v.isTruthy = false ∧ t = [] := by
  rw [orElse] at h
  split_ifs at h with htruthy
  · exact .inl h
  · cases h
    exact .inr ⟨Bool.eq_false_iff.2 htruthy, rfl⟩

lemma orElse_table (t : Table Value Value) : (Value.table t).orElse (.table []) = .table t := by
  cases t <;> rfl

lemma isObject_of_orElse {v : Value} {t : Table Value Value} (h : v.orElse (.table []) = .table t) :
    v.IsObject := by
  intro htruthy
  obtain rfl | ⟨hfalsy, -⟩ := orElse_eq_table h
  · exact ⟨t, rfl⟩
  · cases htruthy.symm.trans hfalsy

lemma IsObject.orElse {v : Value} (h : v.IsObject) : ∃ t, v.orElse (.table []) = .table t := by
  rw [Value.orElse]
  split_ifs with htruthy
  · exact h htruthy
  · exact ⟨[], rfl⟩

lemma not_isObject_of_orElse {v : Value} (h : ∀ t, v.orElse (.table []) ≠ .table t) :
    ¬ v.IsObject := by
  intro hobject
  obtain ⟨t, ht⟩ := hobject.orElse
  exact h t ht

lemma eq_table_of_entries {v : Value} {record : Table Value Value} (h : v.entries = .ok record) :
    v = .table record := by
  cases v with
  | table es =>
    cases h
    rfl
  | loop shape up => cases shape <;> cases h
  | _ => cases h

/-- A reader of a record breaks off inside of it. -/
lemma breaks_entries_bind_iff {α : Type} {v : Value} {g : Table Value Value → Except Fault α} :
    Breaks (v.entries >>= g) ↔ ∃ record, v = .table record ∧ Breaks (g record) := by
  rw [breaks_bind_iff_of_not (not_breaks_entries v)]
  constructor
  · rintro ⟨record, hrecord, h⟩
    exact ⟨record, eq_table_of_entries hrecord, h⟩
  · rintro ⟨record, rfl, h⟩
    exact ⟨record, rfl, h⟩

lemma not_breaks_items (v : Value) : ¬ Breaks v.items := by
  cases v with
  | list items | tuple items | set items => exact not_breaks_pure _
  | table es => exact not_breaks_pure _
  | text s => exact not_breaks_pure _
  | octets bytes => exact not_breaks_pure _
  | _ => exact not_breaks_error rfl

/-- A record must have a name before the rest of it is read. -/
lemma breaks_require_bind_iff {α : Type} {record : Table Value Value} {name : String}
    {g : Value → Except Fault α} :
    Breaks (require record name >>= g) ↔
      ∃ v, record.get? (.text name) = some v ∧ Breaks (g v) := by
  rw [require]
  cases record.get? (.text name) with
  | none => exact iff_of_false (not_breaks_error rfl) (by simp)
  | some v =>
    constructor
    · exact fun h => ⟨v, rfl, h⟩
    · rintro ⟨_, ⟨⟩, h⟩
      exact h

lemma not_breaks_checkKey (v : Value) : ¬ Breaks v.checkKey := by
  rw [checkKey]
  split
  · exact not_breaks_error rfl
  · exact not_breaks_pure _

lemma not_breaks_pairAt (index : Nat) (item : Value) : ¬ Breaks (pairAt index item) := by
  rw [pairAt]
  split
  · exact not_breaks_error rfl
  · exact not_breaks_bind (not_breaks_checkKey _) fun _ _ => not_breaks_pure _
  · exact not_breaks_error rfl

lemma isForeseen_of_putPairs {t u : Table Value Value} {index : Nat} {items : List Value}
    {f : Fault} (h : putPairs t index items = (u, some f)) : f.isForeseen = true := by
  induction items generalizing t index with
  | nil => cases h
  | cons item items ih =>
    rw [putPairs] at h
    split at h
    · next hpair =>
      cases h
      by_contra hf
      exact not_breaks_pairAt index item ⟨f, hpair, Bool.eq_false_iff.2 hf⟩
    · exact ih h

lemma isForeseen_of_putAll {t u : Table Value Value} {v : Value} {f : Fault}
    (h : putAll t v = (u, some f)) : f.isForeseen = true := by
  unfold putAll at h
  split at h
  · cases h
  · split at h
    · next hitems =>
      cases h
      by_contra hf
      exact not_breaks_items v ⟨f, hitems, Bool.eq_false_iff.2 hf⟩
    · exact isForeseen_of_putPairs h

lemma not_breaks_toTable (v : Value) : ¬ Breaks v.toTable := by
  rw [toTable]
  split
  · exact not_breaks_pure _
  · next h => exact not_breaks_error (isForeseen_of_putAll h)

lemma not_breaks_integerOfText (base : Nat) (s : String) : ¬ Breaks (integerOfText base s) := by
  rw [integerOfText]
  split
  · exact not_breaks_error rfl
  · exact not_breaks_error rfl
  · exact not_breaks_pure _

lemma breaks_toInteger_iff (v : Value) : Breaks v.toInteger ↔ v.IsInfinite := by
  cases v with
  | real x =>
    have hinfinite : (Value.real x).IsInfinite ↔ x.isInfinite = true :=
      ⟨fun ⟨_, heq, hx⟩ => Value.real.inj heq ▸ hx, fun hx => ⟨x, rfl, hx⟩⟩
    rw [toInteger, hinfinite]
    split_ifs with hnan hinf
    · refine iff_of_false (not_breaks_error rfl) fun hinf => ?_
      -- a fraction that is zero and is not
      simp only [Double.isNaN, Double.isInfinite, Bool.and_eq_true, bne_iff_ne, beq_iff_eq]
        at hnan hinf
      exact hnan.2 hinf.2
    · exact iff_of_true ⟨_, rfl, rfl⟩ hinf
    · exact iff_of_false (not_breaks_pure _) hinf
  | bool b | int n => exact iff_of_false (not_breaks_pure _) (by rintro ⟨x, ⟨⟩, -⟩)
  | text s => exact iff_of_false (not_breaks_integerOfText 10 s) (by rintro ⟨x, ⟨⟩, -⟩)
  | _ => exact iff_of_false (not_breaks_error rfl) (by rintro ⟨x, ⟨⟩, -⟩)

end Value

lemma ParamKind.not_breaks_parse (v : Value) : ¬ Breaks (parse v) := by
  rw [parse]
  split
  · rw [ofCode]
    refine not_breaks_bind (Value.not_breaks_integerOfText 10 _) fun n _ => ?_
    split
    · exact not_breaks_pure _
    · exact not_breaks_error rfl
  · dsimp only
    split
    · exact not_breaks_pure _
    · split
      · exact not_breaks_pure _
      · exact not_breaks_error rfl

lemma Node.not_breaks_ofValue (v : Value) : ¬ Breaks (ofValue v) := by
  fun_induction ofValue v with
  | case1 v fault hv =>
    rintro ⟨f, hf, hodd⟩
    cases hf
    exact v.not_breaks_entries ⟨fault, hv, hodd⟩
  | case2 v record hv ih =>
    rw [Value.breaks_require_bind_iff]
    rintro ⟨name, -, h⟩
    refine not_breaks_bind (Value.not_breaks_toTable _) (fun values _ => ?_) h
    split
    · next fault hitems =>
      rintro ⟨f, hf, hodd⟩
      cases hf
      exact Value.not_breaks_items _ ⟨fault, hitems, hodd⟩
    · next data hitems =>
      exact not_breaks_bind (not_breaks_mapM fun c _ => ih data hitems c.1 c.2)
        fun _ _ => not_breaks_pure _

lemma Node.not_breaks_listOfValue (v : Value) : ¬ Breaks (listOfValue v) :=
  not_breaks_bind (Value.not_breaks_items _) fun _ _ => not_breaks_mapM fun c _ =>
    Node.not_breaks_ofValue c

/-! ### Readers that break off -/

lemma LogLevel.breaks_parse_iff (v : Value) (default : LogLevel) :
    Breaks (parse v default) ↔ v.IsInfinite := by
  have hcode : Breaks (v.toInteger >>= fun n => ofValue (.int n)) ↔ v.IsInfinite := by
    rw [breaks_bind_iff, v.breaks_toInteger_iff, or_iff_left]
    rintro ⟨n, -, h⟩
    revert h
    rw [imp_false, ofValue]
    split
    · exact not_breaks_pure _
    · exact not_breaks_error rfl
  cases v with
  | null => exact iff_of_false (not_breaks_pure _) (by rintro ⟨x, ⟨⟩, -⟩)
  | text s =>
    rw [parse]
    split_ifs
    · exact iff_of_false (not_breaks_pure _) (by rintro ⟨x, ⟨⟩, -⟩)
    · exact hcode
    · refine iff_of_false ?_ (by rintro ⟨x, ⟨⟩, -⟩)
      dsimp only
      split
      · exact not_breaks_pure _
      · exact not_breaks_error rfl
  | _ => exact hcode

lemma ParamOptions.breaks_ofValue_iff (v : Value) : Breaks (ofValue v) ↔ ¬ v.IsObject := by
  rw [ofValue]
  split
  · next t ht =>
    exact iff_of_false (not_breaks_pure _) (not_not_intro (Value.isObject_of_orElse ht))
  · next hother => exact iff_of_true ⟨_, rfl, rfl⟩ (Value.not_isObject_of_orElse hother)

lemma ParamSpec.not_breaks_kindOfRecord (record : Table Value Value) :
    ¬ Breaks (kindOfRecord record) := by
  rw [kindOfRecord]
  split
  · exact ParamKind.not_breaks_parse _
  · exact ParamKind.not_breaks_parse _
  · exact not_breaks_pure _

/-- A record of a parameter that breaks off: the parameter has a name, and a kind that can be read,
but its options are no object. -/
structure ParamSpec.BreaksOff (record : Table Value Value) : Prop where
  named : ∃ v, record.get? (.text "name") = some v
  kind : (kindOfRecord record).isOk = true
  options : ¬ (Value.getD record "options" .null).IsObject

lemma ParamSpec.breaks_ofValue_iff (v : Value) :
    Breaks (ofValue v) ↔ ∃ record, v = .table record ∧ BreaksOff record := by
  rw [ofValue, Value.breaks_entries_bind_iff]
  refine exists_congr fun record => and_congr_right fun _ => ?_
  rw [Value.breaks_require_bind_iff]
  simp only [breaks_bind_iff, not_breaks_kindOfRecord,
    ParamOptions.breaks_ofValue_iff, not_breaks_pure, and_false, exists_false, or_false, false_or]
  constructor
  · rintro ⟨name, hname, kind, hkind, hoptions⟩
    exact ⟨⟨name, hname⟩, isOk_of_eq_ok hkind, hoptions⟩
  · rintro ⟨⟨name, hname⟩, hkind, hoptions⟩
    obtain ⟨kind, hkind⟩ := exists_ok_of_isOk hkind
    exact ⟨name, hname, kind, hkind, hoptions⟩

lemma Definition.breaks_langsOfValue_iff (v : Value) : Breaks (langsOfValue v) ↔ ¬ v.IsObject := by
  rw [langsOfValue]
  split
  · next t ht =>
    refine iff_of_false (not_breaks_mapM fun e _ => ?_)
      (not_not_intro (Value.isObject_of_orElse ht))
    exact not_breaks_bind (Value.not_breaks_toTable _) fun _ _ => not_breaks_pure _
  · next hother => exact iff_of_true ⟨_, rfl, rfl⟩ (Value.not_isObject_of_orElse hother)

lemma Definition.not_breaks_paramData (record : Table Value Value) : ¬ Breaks (paramData record) :=
  Value.not_breaks_items _

/-- A record of a definition that breaks off. The members that are read before the one that is to
blame can be read. -/
inductive Definition.BreaksOff (record : Table Value Value) : Prop
  /-- The log level is infinite. -/
  | level (named : ∃ v, record.get? (.text "name") = some v)
      (infinite : (levelData record).IsInfinite)
  /-- The options of a parameter are no object. -/
  | param {before after : List Value} {spec : Table Value Value}
      (named : ∃ v, record.get? (.text "name") = some v)
      (level : (LogLevel.parse (levelData record) .inherit).isOk = true)
      (params : paramData record = .ok (before ++ .table spec :: after))
      (read : ∀ v ∈ before, (ParamSpec.ofValue v).isOk = true)
      (breaks : ParamSpec.BreaksOff spec)
  /-- The language tables are no object. -/
  | langs {items : List Value} (named : ∃ v, record.get? (.text "name") = some v)
      (level : (LogLevel.parse (levelData record) .inherit).isOk = true)
      (params : paramData record = .ok items)
      (read : ∀ v ∈ items, (ParamSpec.ofValue v).isOk = true)
      (tree : (Node.listOfValue (Value.getD record "tree" .null)).isOk = true)
      (noObject : ¬ (Value.getD record "langs" .null).IsObject)

lemma Definition.breaks_ofValue_iff (v : Value) :
    Breaks (ofValue v) ↔ ∃ record, v = .table record ∧ BreaksOff record := by
  rw [ofValue, Value.breaks_entries_bind_iff]
  refine exists_congr fun record => and_congr_right fun _ => ?_
  rw [Value.breaks_require_bind_iff]
  simp only [breaks_bind_iff, LogLevel.breaks_parse_iff, not_breaks_paramData,
    Node.not_breaks_listOfValue, breaks_langsOfValue_iff, not_breaks_pure,
    and_false, exists_false, or_false, false_or]
  constructor
  · rintro ⟨name, hname, hinfinite | ⟨level, hlevel, items, hitems, hparams | hlangs⟩⟩
    · exact .level ⟨name, hname⟩ hinfinite
    · obtain ⟨before, v, after, rfl, hread, hbreaks⟩ := breaks_mapM_iff.1 hparams
      obtain ⟨spec, rfl, hspec⟩ := (ParamSpec.breaks_ofValue_iff v).1 hbreaks
      exact .param ⟨name, hname⟩ (isOk_of_eq_ok hlevel) hitems hread hspec
    · obtain ⟨params, hparams, tree, htree, hlangs⟩ := hlangs
      exact .langs ⟨name, hname⟩ (isOk_of_eq_ok hlevel) hitems
        (isOk_mapM_iff.1 (isOk_of_eq_ok hparams)) (isOk_of_eq_ok htree) hlangs
  · rintro (⟨⟨name, hname⟩, hinfinite⟩ | ⟨⟨name, hname⟩, hlevel, hitems, hread, hspec⟩ |
      ⟨⟨name, hname⟩, hlevel, hitems, hread, htree, hlangs⟩)
    · exact ⟨name, hname, .inl hinfinite⟩
    · obtain ⟨level, hlevel⟩ := exists_ok_of_isOk hlevel
      refine ⟨name, hname, .inr ⟨level, hlevel, _, hitems, .inl ?_⟩⟩
      exact breaks_mapM_iff.2
        ⟨_, _, _, rfl, hread, (ParamSpec.breaks_ofValue_iff _).2 ⟨_, rfl, hspec⟩⟩
    · obtain ⟨level, hlevel⟩ := exists_ok_of_isOk hlevel
      obtain ⟨params, hparams⟩ := exists_ok_of_isOk (isOk_mapM_iff.2 hread)
      obtain ⟨tree, htree⟩ := exists_ok_of_isOk htree
      exact ⟨name, hname,
        .inr ⟨level, hlevel, _, hitems, .inr ⟨params, hparams, tree, htree, hlangs⟩⟩⟩

/-- The data of a header that breaks off. -/
inductive Header.BreaksOff (v : Value) (base : Header) : Prop
  /-- The header is no object. -/
  | header (noObject : ¬ v.IsObject)
  /-- The messages can be read, and the log level is infinite. -/
  | level {record : Table Value Value} (object : v = .table record)
      (messages : (Value.putAll base.messages
        ((Value.getD record "messages" .null).orElse (.table []))).2 = none)
      (infinite : (Value.getD record "log_level" .null).IsInfinite)

lemma Header.breaks_ofValue_iff (v : Value) (base : Header) :
    Breaks (ofValue v base) ↔ BreaksOff v base := by
  rw [ofValue]
  split
  · next record hrecord =>
    have hobject : v.IsObject := Value.isObject_of_orElse hrecord
    dsimp only
    split
    · next t hput =>
      have hrest (level : LogLevel) (h : Header) :
          ¬ Breaks (if (level == .inherit) = true then throw .headerInherits >>= fun (_ : Unit) =>
            pure h else pure h) := by
        split_ifs
        · exact not_breaks_error rfl
        · exact not_breaks_pure _
      simp only [pure_bind, breaks_bind_iff, LogLevel.breaks_parse_iff, hrest, and_false,
        exists_false, or_false]
      constructor
      · intro hinfinite
        obtain rfl | ⟨-, rfl⟩ := Value.orElse_eq_table hrecord
        · exact .level rfl (by rw [hput]) hinfinite
        · obtain ⟨x, ⟨⟩, -⟩ := hinfinite
      · rintro (hnone | ⟨rfl, -, hinfinite⟩)
        · exact absurd hobject hnone
        · cases (Value.orElse_table _).symm.trans hrecord
          exact hinfinite
    · next fault hput =>
      refine iff_of_false (not_breaks_error (Value.isForeseen_of_putAll hput)) ?_
      rintro (hnone | ⟨rfl, hmessages, -⟩)
      · exact hnone hobject
      · cases (Value.orElse_table _).symm.trans hrecord
        rw [hput] at hmessages
        cases hmessages
  · next hother =>
    exact iff_of_true ⟨_, rfl, rfl⟩ (.header (Value.not_isObject_of_orElse hother))

/-- A definition with texts where texts are expected, and with language tables of texts. -/
structure Definition.Regular (d : Definition) : Prop where
  name : d.name.IsText
  title : d.title.IsText
  code : d.code.IsText
  params : ∀ p ∈ d.params, p.name.IsText ∧ p.title.IsText
  tree : ∀ n, Node.Active (fun _ => True) d.tree n → n.name.IsText
  langs : d.HasTextLangs

lemma Value.HasTextName.require {record : Table Value Value} (h : HasTextName record) {v : Value}
    (hv : Value.require record "name" = .ok v) : v.IsText := by
  rw [Value.require] at hv
  split at hv
  · next hget =>
    cases hv
    exact h _ hget
  · cases hv

/-- What a declaration is read from, the kind of the parameter left aside. -/
lemma ParamSpec.exists_record_of_ofValue {v : Value} {p : ParamSpec} (hp : ofValue v = .ok p) :
    ∃ record, v.entries = .ok record ∧ Value.require record "name" = .ok p.name ∧
      p.title = Value.getD record "title" (.text "") ∧
      ParamOptions.ofValue (Value.getD record "options" .null) = .ok p.options := by
  obtain ⟨record, hrecord, hp⟩ := Except.bind_eq_ok_iff.1 hp
  obtain ⟨name, hname, hp⟩ := Except.bind_eq_ok_iff.1 hp
  refine ⟨record, hrecord, ?_⟩
  obtain ⟨kind, -, hp⟩ := Except.bind_eq_ok_iff.1 hp
  obtain ⟨options, hoptions, hp⟩ := Except.bind_eq_ok_iff.1 hp
  cases hp
  exact ⟨hname, rfl, hoptions⟩

namespace Node

lemma Active.exists_singleton {P : Node → Prop} {ns : List Node} {m : Node} (h : Active P ns m) :
    ∃ n ∈ ns, Active P [n] m := by
  cases h with
  | top mem on => exact ⟨m, mem, .top List.mem_cons_self on⟩
  | @under _ n _ mem on inside active =>
    exact ⟨n, mem, .under List.mem_cons_self on inside active⟩

/-- What a node that is read comes from. -/
lemma exists_record_of_ofValue {v : Value} {n : Node} (hn : ofValue v = .ok n) :
    ∃ record, v = .table record ∧ Value.require record "name" = .ok n.name ∧
      ∀ c ∈ n.children, ∃ data, (childData record).items = .ok data ∧
        ∃ w ∈ data, ofValue w = .ok c := by
  rw [ofValue] at hn
  split at hn
  · cases hn
  · next record hrecord =>
    obtain ⟨name, hname, hn⟩ := Except.bind_eq_ok_iff.1 hn
    obtain ⟨values, -, hn⟩ := Except.bind_eq_ok_iff.1 hn
    split at hn
    · cases hn
    · next data hdata =>
      obtain ⟨children, hchildren, hn⟩ := Except.bind_eq_ok_iff.1 hn
      cases hn
      refine ⟨record, Value.eq_table_of_entries hrecord, hname, fun c hc => ⟨data, hdata, ?_⟩⟩
      obtain ⟨⟨w, hw⟩, -, hread⟩ := exists_of_mem_mapM hchildren hc
      exact ⟨w, hw, hread⟩

/-- Nodes of the declared shape have texts for names, at any depth. -/
lemma Shaped.texts {v : Value} (hv : Shaped v) {n m : Node} (hn : ofValue v = .ok n)
    (hm : Active (fun _ => True) [n] m) : m.name.IsText := by
  obtain ⟨record, htable, hname, hchildren⟩ := exists_record_of_ofValue hn
  induction hv generalizing n record with
  | node name children ih =>
    cases htable
    cases hm with
    | top mem =>
      rw [List.mem_singleton.1 mem]
      exact name.require hname
    | under mem on inside active =>
      rw [List.mem_singleton.1 mem] at active
      obtain ⟨c, hc, hactive⟩ := active.exists_singleton
      obtain ⟨data, hdata, w, hw, hread⟩ := hchildren c hc
      obtain ⟨record', htable', hname', hchildren'⟩ := exists_record_of_ofValue hread
      exact ih data hdata w hw hread hactive record' htable' hname' hchildren'
  | other noRecord => exact absurd htable (noRecord record)

end Node

namespace Definition

lemma LangsShaped.isTexts {v : Value} (hv : LangsShaped v)
    {langs : Table Value (Table Value Value)} (hlangs : langsOfValue v = .ok langs) :
    ∀ l ∈ langs, Table.IsTexts l.2 := by
  intro l hl
  rw [langsOfValue] at hlangs
  split at hlangs
  · next entries hentries =>
    obtain ⟨e, he, hread⟩ := exists_of_mem_mapM hlangs hl
    obtain ⟨t, ht, heq⟩ := Except.bind_eq_ok_iff.1 hread
    cases heq
    obtain rfl | ⟨-, rfl⟩ := Value.orElse_eq_table hentries
    · have htruthy : (Value.table entries).isTruthy = true := by
        rw [Value.isTruthy, Bool.not_eq_true', List.isEmpty_eq_false_iff]
        exact List.ne_nil_of_mem he
      obtain ⟨_, heq, hentry⟩ := hv htruthy
      cases heq
      rw [Value.orElse] at ht
      split_ifs at ht with hgiven
      · obtain ⟨u, hu, htexts⟩ := hentry e he hgiven
        rw [hu] at ht
        cases ht
        refine Table.isTexts_nil.merge fun x hx => ?_
        obtain ⟨⟨k, hk⟩, ⟨s, hs⟩⟩ := htexts x hx
        exact ⟨k, s, Prod.ext hk hs⟩
      · cases ht
        exact Table.isTexts_nil
    · cases he
  · cases hlangs

end Definition

end NodeScript
