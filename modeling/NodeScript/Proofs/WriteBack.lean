import NodeScript.Proofs.Shapes

/-!
# Reading what was written

The data of definitions is read with some freedom: entries have other names, levels and kinds are
codes or words, tables are lists of pairs, and what is missing is filled in. A definition is written
in one way only. Reading what was written gives the definition back, so that reading and writing
brings data into a form which does not change any more.

The one thing that reading changes about what it keeps is that a table gets one entry for each key.
Tables with one entry for each key are `Settled`; a reader makes such tables only, and keeps them as
they are.
-/

namespace NodeScript

/-! ### Tables -/

namespace Table

variable {α : Type} {t u : Table Value α} {k : Value} {v : α}

/-- No entry has a key that names an entry before it. -/
def Settled (t : Table Value α) : Prop :=
  t.keys.Pairwise fun k k' => Value.same k k' = false

lemma settled_nil : Settled ([] : Table Value α) :=
  List.Pairwise.nil

lemma mem_keys_put {k' : Value} (h : k' ∈ (t.put k v).keys) : k' ∈ t.keys ∨ k' = k := by
  induction t with
  | nil => exact .inr (List.mem_singleton.1 h)
  | cons e t ih =>
    obtain ⟨l, w⟩ := e
    rw [put_cons] at h
    split_ifs at h
    · exact .inl h
    · rcases List.mem_cons.1 h with rfl | h
      · exact .inl List.mem_cons_self
      · exact (ih h).imp_left (List.mem_cons_of_mem l)

lemma Settled.put (ht : t.Settled) (k : Value) (v : α) : (t.put k v).Settled := by
  induction t with
  | nil => exact List.pairwise_singleton _ k
  | cons e t ih =>
    obtain ⟨l, w⟩ := e
    obtain ⟨hfirst, hrest⟩ := List.pairwise_cons.1 ht
    rw [put_cons]
    split_ifs with hk
    · exact ht
    · refine List.pairwise_cons.2 ⟨fun k' hk' => ?_, ih hrest⟩
      rcases mem_keys_put hk' with hk' | rfl
      · exact hfirst k' hk'
      · exact Bool.eq_false_iff.2 hk

lemma Settled.merge (ht : t.Settled) (u : Table Value α) : (t.merge u).Settled := by
  induction u generalizing t with
  | nil => exact ht
  | cons e u ih => exact ih (ht.put e.1 e.2)

/-- Writing the entries of a settled table one after the other adds each of them at the end. -/
lemma Settled.merge_eq (h : Settled (t ++ u)) : t.merge u = t ++ u := by
  induction u generalizing t with
  | nil => exact (List.append_nil t).symm
  | cons e u ih =>
    obtain ⟨k, v⟩ := e
    have hnew : t.hasKey k = false := by
      rw [hasKey, List.any_eq_false]
      intro e he
      rw [Settled, keys, List.map_append, List.pairwise_append] at h
      exact Bool.eq_false_iff.1 (h.2.2 e.1 (List.mem_map_of_mem he) k List.mem_cons_self)
    have hput : t.put k v = t ++ [(k, v)] := by
      have happend := put_append t [] k v
      rw [hnew, List.append_nil] at happend
      exact happend
    change (t.put k v).merge u = _
    rw [List.append_cons] at h ⊢
    rw [hput, ih h]

end Table

namespace Value

lemma settled_putPairs {t : Table Value Value} (ht : t.Settled) (index : Nat)
    (items : List Value) : (putPairs t index items).1.Settled := by
  induction items generalizing t index with
  | nil => exact ht
  | cons item items ih =>
    rw [putPairs]
    split
    · exact ht
    · exact ih (ht.put _ _) (index + 1)

lemma settled_putAll {t : Table Value Value} (ht : t.Settled) (v : Value) :
    (putAll t v).1.Settled := by
  rw [putAll.eq_def]
  split
  · exact ht.merge _
  · split
    · exact ht
    · exact settled_putPairs ht 0 _

/-- Tables that are read are settled. -/
lemma settled_of_toTable {v : Value} {t : Table Value Value} (h : v.toTable = .ok t) :
    t.Settled := by
  have hsettled := settled_putAll Table.settled_nil v
  rw [toTable] at h
  split at h
  · next hput =>
    cases h
    rw [hput] at hsettled
    exact hsettled
  · cases h

/-- A settled table is read as it is. -/
lemma toTable_of_settled {t : Table Value Value} (ht : t.Settled) :
    ((Value.table t).orElse (.table [])).toTable = .ok t := by
  cases t with
  | nil => rfl
  | cons e t =>
    change Except.ok (Table.merge [] (e :: t)) = _
    rw [Table.Settled.merge_eq (t := []) ht, List.nil_append]

/-- A list of tables has these tables for items. -/
lemma items_of_tables {vs : List Value} (h : ∀ v ∈ vs, ∃ t, v = .table t) :
    ((Value.list vs).orElse (.list [])).items = .ok vs := by
  have hitems : vs.map (itemOf (.list vs)) = vs := by
    have hitem : ∀ v ∈ vs, itemOf (.list vs) v = id v := by
      intro v hv
      obtain ⟨t, rfl⟩ := h v hv
      rfl
    rw [List.map_congr_left hitem, List.map_id]
  cases vs with
  | nil => rfl
  | cons v vs => exact congrArg Except.ok hitems

end Value

/-! ### Levels, kinds and parameters -/

lemma LogLevel.parse_code (l default : LogLevel) : parse (.int l.code) default = .ok l := by
  cases l <;> rfl

lemma ParamKind.parse_word (k : ParamKind) : parse (.text k.word) = .ok k := by
  cases k <;> decide +kernel

/-! ### Records -/

/-- Looking up an entry of a record by its name. -/
lemma Table.get?_cons_text (s : String) (v : Value) (t : Table Value Value) (name : String) :
    Table.get? ((.text s, v) :: t) (.text name) =
      if s = name then some v else t.get? (.text name) := by
  simp only [get?_cons, Value.same_text_iff, Value.text.injEq]

lemma ParamOptions.entryText_of_get? {record : Table Value Value} {name s : String}
    (h : record.get? (.text name) = some (.text s)) : entryText record name = s := by
  rw [entryText, Value.getD, h, Option.getD_some]
  by_cases hs : s = ""
  · rw [hs]
    rfl
  · rw [if_pos (by simpa [Value.isTruthy] using hs)]
    rfl

lemma ParamOptions.ofValue_toValue (o : ParamOptions) : ofValue o.toValue = .ok o := by
  obtain ⟨required, default, type⟩ := o
  have hdefault : entryText [(.text "required", .bool required), (.text "default", .text default),
      (.text "type", .text type)] "default" = default := entryText_of_get? rfl
  have htype : entryText [(.text "required", .bool required), (.text "default", .text default),
      (.text "type", .text type)] "type" = type := entryText_of_get? rfl
  change Except.ok (ParamOptions.mk required _ _) = _
  rw [hdefault, htype]

lemma ParamSpec.ofValue_toValue (p : ParamSpec) : ofValue p.toValue = .ok p := by
  simp only [toValue, ofValue, kindOfRecord, Value.entries, Value.require, Value.getD,
    Table.get?_cons_text, String.reduceEq, if_true, if_false, Option.getD_some, bind, Except.bind,
    pure, Except.pure, ParamKind.parse_word, ParamOptions.ofValue_toValue]

/-! ### Nodes -/

namespace Node

/-- A node with settled values, and so all nodes below it. -/
inductive Settled : Node → Prop
  | mk {name : Value} {disabled : Bool} {values : Table Value Value} {children : List Node}
      (own : values.Settled) (below : ∀ c ∈ children, Settled c) :
      Settled (.mk name disabled values children)

/-- How a node is read, if its children can be told. -/
lemma ofValue_eq {v : Value} {record : Table Value Value} {data : List Value}
    (hv : v.entries = .ok record) (hc : (childData record).items = .ok data) :
    ofValue v = do
      let name ← Value.require record "name"
      let values ← ((Value.getD record "values" .null).orElse (.table [])).toTable
      let children ← data.mapM ofValue
      return .mk name (isDisabled record) values children := by
  rw [ofValue]
  split
  · next hfault => cases hv.symm.trans hfault
  · next record' hrecord =>
    cases hv.symm.trans hrecord
    refine bind_congr fun name => bind_congr fun values => ?_
    split
    · next hfault => cases hc.symm.trans hfault
    · next data' hdata =>
      cases hc.symm.trans hdata
      rw [List.mapM_subtype (g := ofValue) fun _ _ => rfl, List.unattach_attach]

/-- Nodes that are read are settled. -/
lemma settled_of_ofValue {v : Value} {n : Node} (hn : ofValue v = .ok n) : n.Settled := by
  fun_induction ofValue v generalizing n with
  | case1 v fault hv => cases hn
  | case2 v record hv ih =>
    obtain ⟨name, -, hn⟩ := Except.bind_eq_ok_iff.1 hn
    obtain ⟨values, hvalues, hn⟩ := Except.bind_eq_ok_iff.1 hn
    split at hn
    · cases hn
    · next data hdata =>
      obtain ⟨children, hchildren, hn⟩ := Except.bind_eq_ok_iff.1 hn
      cases hn
      refine .mk (Value.settled_of_toTable hvalues) fun c hc => ?_
      obtain ⟨⟨w, hw⟩, -, hread⟩ := exists_of_mem_mapM hchildren hc
      exact ih data hdata w hw hread

lemma toValues_eq_map (ns : List Node) : toValues ns = ns.map toValue := by
  induction ns with
  | nil => rfl
  | cons n ns ih => rw [toValues, ih, List.map_cons]

lemma exists_table_of_mem {ns : List Node} {v : Value} (hv : v ∈ toValues ns) :
    ∃ t, v = .table t := by
  rw [toValues_eq_map] at hv
  obtain ⟨⟨name, disabled, values, children⟩, -, rfl⟩ := List.mem_map.1 hv
  exact ⟨_, rfl⟩

/-- A settled node is read as it was written. -/
lemma Settled.ofValue_toValue {n : Node} (hn : n.Settled) : ofValue n.toValue = .ok n := by
  induction hn with
  | @mk name disabled values children own below ih =>
    have hchildren : childData [(.text "name", name), (.text "disabled", .bool disabled),
        (.text "values", .table values), (.text "children", .list (toValues children))] =
          (Value.list (toValues children)).orElse (.list []) := by
      simp only [childData, Value.getD, Table.get?_cons_text, String.reduceEq, if_true, if_false,
        Option.getD_some]
    have hitems : ((Value.list (toValues children)).orElse (.list [])).items =
        .ok (toValues children) := Value.items_of_tables fun v => exists_table_of_mem
    rw [← hchildren] at hitems
    rw [toValue, ofValue_eq rfl hitems]
    simp only [Value.require, isDisabled, Value.getD, Table.get?_cons_text, String.reduceEq,
      if_true, if_false, Option.getD_some, Value.isTruthy, bind, Except.bind, pure, Except.pure,
      Value.toTable_of_settled own, toValues_eq_map, mapM_map_eq_ok ih]

end Node

/-! ### Definitions -/

namespace Definition

/-- A definition with settled language tables, and settled nodes in its tree. -/
structure Settled (d : Definition) : Prop where
  tree : ∀ n ∈ d.tree, n.Settled
  langs : ∀ l ∈ d.langs, Table.Settled l.2

lemma settled_of_langsOfValue {v : Value} {langs : Table Value (Table Value Value)}
    (h : langsOfValue v = .ok langs) : ∀ l ∈ langs, Table.Settled l.2 := by
  intro l hl
  rw [langsOfValue] at h
  split at h
  · obtain ⟨e, -, hread⟩ := exists_of_mem_mapM h hl
    obtain ⟨t, ht, heq⟩ := Except.bind_eq_ok_iff.1 hread
    cases heq
    exact Value.settled_of_toTable ht
  · cases h

/-- Definitions that are read are settled. -/
lemma settled_of_ofValue {v : Value} {d : Definition} (hd : ofValue v = .ok d) : d.Settled := by
  obtain ⟨record, -, hd⟩ := Except.bind_eq_ok_iff.1 hd
  obtain ⟨name, -, hd⟩ := Except.bind_eq_ok_iff.1 hd
  obtain ⟨level, -, hd⟩ := Except.bind_eq_ok_iff.1 hd
  obtain ⟨items, -, hd⟩ := Except.bind_eq_ok_iff.1 hd
  obtain ⟨params, -, hd⟩ := Except.bind_eq_ok_iff.1 hd
  obtain ⟨tree, htree, hd⟩ := Except.bind_eq_ok_iff.1 hd
  obtain ⟨langs, hlangs, hd⟩ := Except.bind_eq_ok_iff.1 hd
  cases hd
  refine ⟨fun n hn => ?_, settled_of_langsOfValue hlangs⟩
  obtain ⟨data, -, hread⟩ := Except.bind_eq_ok_iff.1 htree
  obtain ⟨w, -, hw⟩ := exists_of_mem_mapM hread hn
  exact Node.settled_of_ofValue hw

lemma langsOfValue_of_settled {langs : Table Value (Table Value Value)}
    (h : ∀ l ∈ langs, Table.Settled l.2) :
    langsOfValue (.table (langs.map fun l => (l.1, .table l.2))) = .ok langs := by
  have hread : ∀ l ∈ langs, (do
      let texts ← ((Value.table l.2).orElse (.table [])).toTable
      return (l.1, texts) : Except Fault (Value × Table Value Value)) = .ok l := by
    intro l hl
    rw [Value.toTable_of_settled (h l hl)]
    rfl
  cases langs with
  | nil => rfl
  | cons l langs => exact mapM_map_eq_ok hread

/-- A settled definition is read as it was written. -/
lemma Settled.ofValue_toValue {d : Definition} (hd : d.Settled) : ofValue d.toValue = .ok d := by
  have hspecs : ∀ v ∈ d.params.map ParamSpec.toValue, ∃ t, v = .table t := by
    intro v hv
    obtain ⟨p, -, rfl⟩ := List.mem_map.1 hv
    exact ⟨_, rfl⟩
  have hparams : (d.params.map ParamSpec.toValue).mapM ParamSpec.ofValue = .ok d.params :=
    mapM_map_eq_ok fun p _ => p.ofValue_toValue
  have htree : Node.listOfValue (.list (Node.toValues d.tree)) = .ok d.tree := by
    rw [Node.listOfValue, Value.items_of_tables fun v => Node.exists_table_of_mem]
    rw [Node.toValues_eq_map]
    exact mapM_map_eq_ok fun n hn => (hd.tree n hn).ofValue_toValue
  simp only [toValue, ofValue, levelData, paramData, Value.entries, Value.require, Value.getD,
    Table.get?_cons_text, String.reduceEq, if_true, if_false, Option.getD_some, bind, Except.bind,
    pure, Except.pure, LogLevel.parse_code, Value.items_of_tables hspecs, hparams, htree,
    langsOfValue_of_settled hd.langs]

/-- The form in which the data of a definition is written after it was read. -/
def canonical (v : Value) : Except Fault Value :=
  (ofValue v).map toValue

/-- A definition that was read is read in the same way from what is written for it. So reading and
writing brings the data of definitions into a form that it keeps. -/
theorem reading_written_definition {v : Value} {d : Definition} (hd : ofValue v = .ok d) :
    ofValue d.toValue = .ok d ∧ ∀ w, canonical v = .ok w → canonical w = .ok w := by
  have hback := (settled_of_ofValue hd).ofValue_toValue
  refine ⟨hback, fun w hw => ?_⟩
  rw [canonical, hd] at hw
  cases hw
  rw [canonical, hback]
  rfl

/-- The data of a definition, with other names for entries, codes and words in other forms, and
lists of pairs in the place of tables. -/
def loose : Value :=
  .table [("name", "copy"), ("title", .null), ("logLevel", "log_Warn"),
    ("params", .list [.table [("name", "to"), ("type", .int 4),
      ("options", .table [("required", .int 1), ("default", .int 7), ("type", .null)])]]),
    ("tree", .list [.table [("name", "log"), ("disable", "yes"),
      ("values", .list [.list [.int 1, "a"], .list [.bool true, "b"], "xy"]),
      ("children", .list [.table [("name", .int 3), ("children", .null)]])]]),
    ("langs", .table [("def", .list [.list ["k", "v"], .list ["k", "w"]]), ("en", .null)])]

/-- The definition that the loose data denotes. -/
def strict : Definition where
  name := "copy"
  title := .null
  logLevel := .warn
  params := [{ name := "to", kind := .number, options := ⟨true, "7", ""⟩ }]
  tree := [.mk "log" true [(.int 1, "b"), ("x", "y")] [.mk (.int 3) false [] []]]
  langs := [("def", [("k", "w")]), ("en", [])]

theorem loose_read_and_written :
    ofValue loose = .ok strict ∧ ofValue strict.toValue = .ok strict ∧
      strict.toValue ≠ loose ∧ canonical strict.toValue = .ok strict.toValue := by
  have hread : ofValue loose = .ok strict := by
    decide +kernel
  obtain ⟨hback, hkept⟩ := reading_written_definition hread
  refine ⟨hread, hback, by decide +kernel, hkept _ ?_⟩
  rw [canonical, hread]
  rfl

end Definition

end NodeScript
