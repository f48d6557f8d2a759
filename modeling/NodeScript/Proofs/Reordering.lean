import NodeScript.Proofs.Agreement
import NodeScript.Proofs.Variables

/-!
# The order of entries

Tables are looked into by key and written in the order of their keys, so the order in which a
language table or the values of a node hold their entries makes no difference to a program, nor to
the failure of a compilation.

`Reordered` relates tables, nodes, definitions and catalogues that hold the same in another order.
What a definition gives to a compilation is compared piece by piece: what is found in its language
tables, the titles in messages, the text of its variables, the arguments of a node.
-/

namespace NodeScript

/-! ### Nodes and definitions in another order -/

/-- Values that are the same, or tables whose entries are the same in any order. -/
inductive Value.Reordered : Value → Value → Prop
  | refl (v : Value) : Reordered v v
  | table {t u : Table Value Value} (entries : t.Reordered u) : Reordered (.table t) (.table u)

/-- Nodes that are the same apart from the order of their values, at any depth. -/
inductive Node.Reordered : List Node → List Node → Prop
  | nil : Reordered [] []
  | cons {name : Value} {disabled : Bool} {values values' : Table Value Value}
      {below below' ns ms : List Node} (entries : values.Reordered values')
      (children : Reordered below below') (rest : Reordered ns ms) :
      Reordered (.mk name disabled values below :: ns) (.mk name disabled values' below' :: ms)

/-- Tables that map texts to texts and have the same entries in any order. -/
structure Table.SameTexts (t u : Table Value Value) : Prop where
  isTexts : t.IsTexts
  perm : t.Perm u

/-- Language tables of texts that are the same apart from the order of the tables and of the texts
in each of them. -/
structure LangsReordered (ls ls' : Table Value (Table Value Value)) : Prop where
  apart : ls.Apart
  tables : ∃ mid, List.Forall₂ (fun l m => m.1 = l.1 ∧ Table.SameTexts l.2 m.2) ls mid ∧
    mid.Perm ls'

/-- Definitions that are the same apart from the order of the entries in their language tables and
in the values of the nodes of their trees. -/
inductive Definition.Reordered : Definition → Definition → Prop
  | mk {d : Definition} {tree : List Node} {langs : Table Value (Table Value Value)}
      (nodes : Node.Reordered d.tree tree) (texts : LangsReordered d.langs langs) :
      Reordered d { d with tree, langs }

/-- Catalogues with the same names, whose definitions are the same apart from the order of
entries. -/
def Catalogue.Reordered (defs defs' : Catalogue) : Prop :=
  List.Forall₂ (fun e f => f.1 = e.1 ∧ e.2.Reordered f.2) defs defs'

/-! ### Language tables -/

lemma Table.SameTexts.get? {t u : Table Value Value} (h : t.SameTexts u) (s : String) :
    t.get? (.text s) = u.get? (.text s) :=
  h.isTexts.get?_perm h.perm s

lemma Table.SameTexts.symm {t u : Table Value Value} (h : t.SameTexts u) : u.SameTexts t :=
  ⟨h.isTexts.perm h.perm, h.perm.symm⟩

namespace LangsReordered

variable {ls ls' : Table Value (Table Value Value)}

/-- The same is found under a language, in another order. -/
lemma get? (h : LangsReordered ls ls') (lang : Value) :
    Option.Rel Table.SameTexts (ls.get? lang) (ls'.get? lang) := by
  obtain ⟨mid, hmid, hperm⟩ := h.tables
  have hapart : Table.Apart mid := by
    rw [Table.Apart, Table.keys_eq_of_rel hmid]
    exact h.apart
  rw [← hapart.get?_perm hperm]
  exact Table.get?_rel hmid lang

end LangsReordered

namespace Definition.Reordered

variable {d d' : Definition} (hd : d.Reordered d')

include hd

lemma nodes : Node.Reordered d.tree d'.tree := by
  cases hd
  assumption

lemma isEmpty_tree : d'.tree.isEmpty = d.tree.isEmpty := by
  have hnodes := hd.nodes
  generalize d.tree = ns at hnodes ⊢
  generalize d'.tree = ms at hnodes ⊢
  cases hnodes <;> rfl

/-- The table of a language has the same texts, in another order. -/
lemma langTable (lang : Value) :
    (∃ f, d.langTable lang = .error f ∧ d'.langTable lang = .error f) ∨
      ∃ t u, d.langTable lang = .ok t ∧ d'.langTable lang = .ok u ∧ t.SameTexts u := by
  obtain ⟨-, texts⟩ := hd
  rw [Definition.langTable, Definition.langTable]
  cases lang.checkKey with
  | error f => exact .inl ⟨f, rfl, rfl⟩
  | ok _ =>
    right
    have hrel := texts.get? lang
    dsimp only
    generalize Table.get? d.langs lang = found at hrel ⊢
    generalize Table.get? _ lang = found' at hrel ⊢
    cases hrel with
    | none => exact ⟨[], [], rfl, rfl, Table.isTexts_nil, .refl _⟩
    | some htexts => exact ⟨_, _, rfl, rfl, htexts⟩

end Definition.Reordered

/-! ### Titles -/

namespace Placeholder

variable {t u : Table Value Value}

/-- An expansion depends on what is found under names, and on nothing else. -/
lemma expandAt_congr (h : ∀ s, t.get? (.text s) = u.get? (.text s)) (room : Nat) :
    expandAt t room = expandAt u room := by
  induction room with
  | zero =>
    funext trail
    simp only [expandAt, Table.hasKey_eq_isSome_get?, h]
  | succ room ih =>
    funext trail
    simp only [expandAt, h, ih]

lemma expand_congr (h : ∀ s, t.get? (.text s) = u.get? (.text s)) (v : Value) :
    expand t v = expand u v := by
  rw [expand, expand, expandFrom, expandFrom, expandAt_congr h]

end Placeholder

/-- How a title is expanded with the texts of a definition. -/
lemma localizeTitle_eq {d : Definition} {lang : Value} {t u : Table Value Value}
    (ht : d.langTable (.text Definition.defaultLang) = .ok t) (hu : d.langTable lang = .ok u)
    (title : Value) :
    localizeTitle title d lang =
      match Placeholder.expand (t.merge u) title with
      | .ok v => .ok v
      | .error (.fault f) => .error (.fault f)
      | .error _ => .ok title := by
  simp only [localizeTitle, ht, hu]
  rfl

lemma localizeTitle_of_error {d : Definition} {lang : Value} {t : Table Value Value} {f : Fault}
    (ht : d.langTable (.text Definition.defaultLang) = .ok t) (hf : d.langTable lang = .error f)
    (title : Value) : localizeTitle title d lang = .error (.fault f) := by
  simp only [localizeTitle, ht, hf]
  rfl

lemma localizeTitle_reordered {d d' : Definition} (hd : d.Reordered d') (title lang : Value) :
    localizeTitle title d' lang = localizeTitle title d lang := by
  obtain ⟨f, hf, -⟩ | ⟨t, t', ht, ht', htt'⟩ := hd.langTable (.text Definition.defaultLang)
  · cases hf
  obtain ⟨f, hf, hf'⟩ | ⟨u, u', hu, hu', huu'⟩ := hd.langTable lang
  · rw [localizeTitle_of_error ht hf, localizeTitle_of_error ht' hf']
  have hget : ∀ s, (Table.merge t' u').get? (.text s) = (Table.merge t u).get? (.text s) := by
    intro s
    rw [Table.get?_merge huu'.isTexts, Table.get?_merge huu'.symm.isTexts, htt'.get?, huu'.get?]
  rw [localizeTitle_eq ht hu, localizeTitle_eq ht' hu', Placeholder.expand_congr hget]

/-! ### Predefined variables -/

namespace Yaml

/-- Texts are written in the order of their keys. -/
lemma sortedTexts_perm {es es' : List (String × String)} (hnodup : (es.map Prod.fst).Nodup)
    (hp : es.Perm es') : sortedTexts es = sortedTexts es' := by
  have hordered : ∀ es : List (String × String),
      (sortedTexts es).Pairwise fun a b => decide (a.1 ≤ b.1) = true := by
    intro es
    refine List.pairwise_mergeSort (fun a b c hab hbc => ?_) (fun a b => ?_) es
    · simp only [decide_eq_true_eq] at hab hbc ⊢
      exact hab.trans hbc
    · simpa using le_total a.1 b.1
  refine List.Perm.eq_of_pairwise (fun a b ha hb hab hba => ?_) (hordered es) (hordered es') ?_
  · have hkey : a.1 = b.1 := le_antisymm (of_decide_eq_true hab) (of_decide_eq_true hba)
    exact List.inj_on_of_nodup_map hnodup (mem_sortedTexts.1 ha)
      (hp.mem_iff.2 (mem_sortedTexts.1 hb)) hkey
  · exact (List.mergeSort_perm es _).trans (hp.trans (List.mergeSort_perm es' _).symm)

lemma write_eq_of_sameTexts {t u : Table Value Value} (h : t.SameTexts u) :
    write (.table t) = write (.table u) := by
  obtain ⟨es, rfl⟩ := exists_textEntries h.isTexts
  obtain ⟨es', rfl⟩ := exists_textEntries h.symm.isTexts
  have hinj : Function.Injective fun e : String × String => (Value.text e.1, Value.text e.2) := by
    rintro ⟨k, v⟩ ⟨k', v'⟩ heq
    cases heq
    rfl
  have hperm : es.Perm es' := (List.map_perm_map_iff hinj).1 h.perm
  have hnodup : (es.map Prod.fst).Nodup := by
    refine List.Nodup.of_map Value.text ?_
    have hkeys := h.isTexts.nodup
    rw [Table.keys, textEntries, List.map_map] at hkeys
    rw [List.map_map]
    exact hkeys
  rw [write, write, sorted_textEntries, sorted_textEntries, sortedTexts_perm hnodup hperm]

end Yaml

namespace Predefined

lemma overlay_reordered {vars vars' t t' : Table Value Value} (hvars : vars.SameTexts vars')
    (ht : t.SameTexts t') :
    ∃ r r', overlay vars t = .ok r ∧ overlay vars' t' = .ok r' ∧ r.SameTexts r' := by
  obtain ⟨r, hr, hrtexts, hget⟩ := overlay_texts hvars.isTexts ht.isTexts
  obtain ⟨r', hr', hrtexts', hget'⟩ := overlay_texts hvars.symm.isTexts ht.symm.isTexts
  refine ⟨r, r', hr, hr', hrtexts, hrtexts.perm_of_get? hrtexts' fun s => ?_⟩
  rw [hget, hget', hvars.get?, ht.get?]

variable {d d' : Definition}

lemma merge_reordered (hd : d.Reordered d') (lang : Value) :
    (∃ f, merge d lang = .error f ∧ merge d' lang = .error f) ∨
      ∃ r r', merge d lang = .ok r ∧ merge d' lang = .ok r' ∧ r.SameTexts r' := by
  obtain ⟨f, hf, -⟩ | ⟨t, t', ht, ht', htt'⟩ := hd.langTable (.text Definition.defaultLang)
  · cases hf
  obtain ⟨r, r', hr, hr', hrr'⟩ := overlay_reordered ⟨Table.isTexts_nil, .refl _⟩ htt'
  simp only [merge, ht, ht', bind, Except.bind]
  split_ifs
  · -- the default table is the only one
    exact .inr ⟨r, r', by simp only [pure, Except.pure, hr, overlay],
      by simp only [pure, Except.pure, hr', overlay], hrr'⟩
  · obtain ⟨f, hf, hf'⟩ | ⟨u, u', hu, hu', huu'⟩ := hd.langTable lang
    · exact .inl ⟨f, by rw [hf], by rw [hf']⟩
    · obtain ⟨q, q', hq, hq', hqq'⟩ := overlay_reordered hrr' huu'
      exact .inr ⟨q, q', by simp only [hu, hr, hq], by simp only [hu', hr', hq'], hqq'⟩

lemma heightEntries_of_texts {t : Table Value Value} (ht : t.IsTexts) :
    Value.heightEntries t = 0 := by
  have htexts := ht.texts
  clear ht
  induction t with
  | nil => rfl
  | cons e t ih =>
    obtain ⟨k, v, rfl⟩ := htexts e List.mem_cons_self
    rw [Value.heightEntries, ih fun e he => htexts e (List.mem_cons_of_mem _ he)]
    rfl

lemma build_reordered (hd : d.Reordered d') (lang : Value) : build d' lang = build d lang := by
  have hname : d'.name = d.name := by cases hd; rfl
  rw [build, build, hname]
  obtain ⟨f, hf, hf'⟩ | ⟨r, r', hr, hr', hrr'⟩ := merge_reordered hd lang
  · rw [hf, hf']
  · rw [hr, hr', liftFault_ok, liftFault_ok, pure_bind, pure_bind, hrr'.perm.isEmpty_eq,
      Yaml.write_eq_of_sameTexts hrr', heightEntries_of_texts hrr'.isTexts,
      heightEntries_of_texts hrr'.symm.isTexts]

end Predefined

/-! ### Arguments -/

namespace Argument

variable {h : Header} {d d' : Definition}

lemma requiredFailure_reordered (hd : d.Reordered d') (p : ParamSpec) :
    requiredFailure h d' p = requiredFailure h d p := by
  have htitle : d'.displayTitle = d.displayTitle ∧ d'.name = d.name := by
    cases hd
    exact ⟨rfl, rfl⟩
  rw [requiredFailure, requiredFailure, localizeTitle_reordered hd, htitle.1,
    localizeTitle_reordered hd, htitle.2]

lemma ofValue_reordered (hd : d.Reordered d') (p : ParamSpec) (raw : Value) (intern : Bool) :
    ofValue h d' p raw intern = ofValue h d p raw intern := by
  have hdefault : textOrDefault h d' p = textOrDefault h d p := by
    funext s
    rw [textOrDefault, textOrDefault, requiredFailure_reordered hd]
  have hname : d'.isSourceCode = d.isSourceCode ∧ d'.name = d.name := by
    cases hd
    exact ⟨rfl, rfl⟩
  simp only [ofValue, ofText, ofNumber, ofList, hdefault, requiredFailure_reordered hd, hname]

lemma rawValue_reordered {values values' : Value} (hvalues : values.Reordered values')
    (p : ParamSpec) :
    rawValue (values'.orElse (.table [])) p = rawValue (values.orElse (.table [])) p := by
  cases hvalues with
  | refl => rfl
  | @table t u entries =>
    have horElse : ∀ es : Table Value Value, (Value.table es).orElse (.table []) = .table es := by
      rintro (_ | ⟨e, es⟩) <;> rfl
    rw [horElse, horElse, rawValue, rawValue, entries.apart.get?_perm entries.perm]

lemma listOfValues_reordered (d : Definition) {values values' : Value}
    (hvalues : values.Reordered values') (intern : Bool) :
    listOfValues h d values' intern = listOfValues h d values intern := by
  simp only [listOfValues, ofParams, ofParam, rawValue_reordered hvalues]

end Argument

lemma Definition.Reordered.sameUse {d d' : Definition} (hd : d.Reordered d') : d.SameUse d' where
  name := by cases hd; rfl
  logLevel := by cases hd; rfl
  codeText := by cases hd; rfl
  isEmpty_tree := hd.isEmpty_tree
  listOfValues h values intern := by
    have hparams : d'.params = d.params := by cases hd; rfl
    simp only [Argument.listOfValues, Argument.ofParams, Argument.ofParam, hparams,
      Argument.ofValue_reordered hd]
  build := Predefined.build_reordered hd

/-! ### Compilations -/

namespace Compile

variable {h : Header} {defs defs' : Catalogue} {tree tree' : List Node → Drafting (List Call)}

lemma nodes_reordered (hdefs : defs.Reordered defs')
    (ht : ∀ ns ms, Node.Reordered ns ms → tree ns = tree' ms) {ns ms : List Node}
    (hns : Node.Reordered ns ms) : nodes h defs tree ns = nodes h defs' tree' ms := by
  induction hns with
  | nil => rfl
  | @cons name disabled values values' below below' ns ms entries _ _ ihc ihr =>
    have htrees : ∀ d d' : Definition,
        d.Reordered d' → d.SameUse d' ∧ tree' d'.tree = tree d.tree :=
      fun d d' hd => ⟨hd.sameUse, (ht _ _ hd.nodes).symm⟩
    rw [nodes, nodes, ihr, node, node, ihc, nodeWith_sameUse htrees (Table.get?_rel hdefs name)
      fun d => Argument.listOfValues_reordered d (.table entries) true]

lemma compileTree_reordered (hdefs : defs.Reordered defs') (depth : Nat) {ns ms : List Node}
    (hns : Node.Reordered ns ms) : compileTree h defs depth ns = compileTree h defs' depth ms := by
  induction depth generalizing ns ms with
  | zero => rfl
  | succ depth ih => exact nodes_reordered hdefs (fun _ _ => ih) hns

/-- The order of entries does not matter: neither that of the language tables of a root and of the
definitions, nor that of the texts in them, nor that of the values of the nodes and of the root. -/
theorem entry_order_irrelevant {h : Header} {defs defs' : Catalogue} {root root' : Definition}
    {values values' : Value} (hdefs : defs.Reordered defs') (hroot : root.Reordered root')
    (hvalues : values.Reordered values') :
    Draft.empty.perform (program h defs' root' values') =
      Draft.empty.perform (program h defs root values) := by
  have hlength : defs'.length = defs.length := (List.Forall₂.length_eq hdefs).symm
  rw [program, program, programWith, programWith, compileNodes, compileNodes, hlength,
    ← compileTree_reordered hdefs _ hroot.nodes, hroot.sameUse.listOfValues,
    Argument.listOfValues_reordered root hvalues, hroot.sameUse.codeText, hroot.sameUse.build,
    hroot.sameUse.name, hroot.sameUse.logLevel]

/-- Values for a definition with a text and a number. -/
def posterValues (times : Int) (text : String) : Table Value Value :=
  [("times", .int times), ("text", .text text)]

/-- A definition with texts in two languages, which uses itself. -/
def poster : Definition where
  name := "poster"
  title := "#_head# #_tail#"
  code := "show(text, times)\r\n%body%"
  params := [{ name := "text", options := { required := true } },
    { name := "times", kind := .number }]
  tree := [.mk "poster" false (posterValues 2 "again") []]
  langs := [("def", [("_head", "A"), ("_tail", "B"), ("size", "10")]),
    ("en", [("_tail", "poster"), ("_head", "Big")])]

/-- The same definition with its entries in another order. -/
def turnedPoster : Definition :=
  { poster with
    tree := [.mk "poster" false (posterValues 2 "again").reverse []]
    langs := [("en", [("_head", "Big"), ("_tail", "poster")]),
      ("def", [("size", "10"), ("_head", "A"), ("_tail", "B")])] }

lemma posterValues_reordered (times : Int) (text : String) :
    (posterValues times text).Reordered (posterValues times text).reverse := by
  refine ⟨(List.reverse_perm _).symm, Table.apart_of_texts ?_ ?_⟩
  all_goals simp [posterValues, Table.keys]

lemma poster_reordered : poster.Reordered turnedPoster := by
  have hkeys : poster.langs.Apart :=
    Table.apart_of_texts (by simp [Table.keys, poster]) (by decide)
  refine .mk (.cons (posterValues_reordered _ _) .nil .nil)
    ⟨hkeys, turnedPoster.langs.reverse, ?_, List.reverse_perm _⟩
  refine .cons ⟨rfl, ⟨?_, ?_⟩, by decide⟩ (.cons ⟨rfl, ⟨?_, ?_⟩, by decide⟩ .nil)
  all_goals simp [Table.keys]

theorem poster_entry_order :
    poster ≠ turnedPoster ∧ poster.Reordered turnedPoster ∧
    (Draft.empty.perform (program .standard [("poster", poster)] poster
      (.table (posterValues 3 "first")))).1.isOk = true ∧
    (Draft.empty.perform (program .standard [("poster", poster)] poster .null)).1.isOk = false ∧
    Draft.empty.perform (program .standard [("poster", turnedPoster)] turnedPoster .null) =
      Draft.empty.perform (program .standard [("poster", poster)] poster .null) ∧
    Draft.empty.perform (program .standard [("poster", turnedPoster)] turnedPoster
        (.table (posterValues 3 "first").reverse)) =
      Draft.empty.perform (program .standard [("poster", poster)] poster
        (.table (posterValues 3 "first"))) := by
  have hdefs : Catalogue.Reordered [("poster", poster)] [("poster", turnedPoster)] :=
    .cons ⟨rfl, poster_reordered⟩ .nil
  refine ⟨by decide, poster_reordered, by decide +kernel, by decide +kernel, ?_, ?_⟩
  · exact entry_order_irrelevant hdefs poster_reordered (.refl .null)
  · exact entry_order_irrelevant hdefs poster_reordered (.table (posterValues_reordered _ _))

end Compile

end NodeScript
