import NodeScript.Proofs.Coverage
import NodeScript.Proofs.Termination

/-!
# Compilations that agree

Two compilations agree if their nodes are alike apart from those that are switched off, and if each
name in use leads to definitions whose trees are alike in the same way. Two results come from this.
Nodes that are switched off are as good as deleted. And definitions that no node in use leads to
make no difference, so a catalogue may gain, replace or lose them.
-/

namespace NodeScript

/-! ### Nodes and definitions that are alike -/

/-- Nodes that are alike apart from those that are switched off, and that use names in `P`. -/
inductive Node.Alike (P : Value → Prop) : List Node → List Node → Prop
  | nil : Alike P [] []
  | left {n : Node} {ns ms : List Node} (off : n.disabled = true) (rest : Alike P ns ms) :
      Alike P (n :: ns) ms
  | right {m : Node} {ns ms : List Node} (off : m.disabled = true) (rest : Alike P ns ms) :
      Alike P ns (m :: ms)
  | both {name : Value} {values : Table Value Value} {below below' ns ms : List Node}
      (used : P name) (children : Alike P below below') (rest : Alike P ns ms) :
      Alike P (.mk name false values below :: ns) (.mk name false values below' :: ms)

/-- Definitions that give the same to a compilation, apart from the nodes in their trees. -/
structure Definition.SameUse (d d' : Definition) : Prop where
  name : d'.name = d.name
  logLevel : d'.logLevel = d.logLevel
  codeText : d'.codeText = d.codeText
  isEmpty_tree : d'.tree.isEmpty = d.tree.isEmpty
  listOfValues : ∀ (h : Header) (values : Value) (intern : Bool),
    Argument.listOfValues h d' values intern = Argument.listOfValues h d values intern
  build : ∀ lang, Predefined.build d' lang = Predefined.build d lang

/-- Definitions that differ in their trees at most, which are alike and both empty or both not. -/
inductive Definition.Alike (P : Value → Prop) : Definition → Definition → Prop
  | mk {d : Definition} {tree : List Node} (empty : tree = [] ↔ d.tree = [])
      (nodes : Node.Alike P d.tree tree) : Alike P d { d with tree }

namespace Definition.Alike

variable {P : Value → Prop} {d d' : Definition}

lemma nodes (hd : d.Alike P d') : Node.Alike P d.tree d'.tree := by
  cases hd
  assumption

lemma sameUse (hd : d.Alike P d') : d.SameUse d' := by
  cases hd with
  | mk empty =>
    refine ⟨rfl, rfl, rfl, ?_, fun _ _ _ => rfl, fun _ => rfl⟩
    rw [Bool.eq_iff_iff, List.isEmpty_iff, List.isEmpty_iff]
    exact empty

end Definition.Alike

/-- Catalogues whose definitions are alike under the names in `P`. -/
def Catalogue.Alike (P : Value → Prop) (defs defs' : Catalogue) : Prop :=
  ∀ name, P name →
    Option.Rel (Definition.Alike P) (Table.get? defs name) (Table.get? defs' name)

namespace Compile

section Alike

variable {h : Header} {defs defs' : Catalogue} {P : Value → Prop}
  {tree tree' : List Node → Drafting (List Call)}

lemma lift_error_bind {α β : Type} (e : Failure) (f : α → Drafting β) :
    (liftM (.error e : Except Failure α) : Drafting α) >>= f = throw e := rfl

/-- A name that leads to related definitions, or to none, is resolved alike. -/
lemma resolve_rel {R : Definition → Definition → Prop} {name : Value}
    (hrel : Option.Rel R (Table.get? defs name) (Table.get? defs' name)) :
    (∃ e, resolve h defs name = .error e ∧ resolve h defs' name = .error e) ∨
      ∃ d d', resolve h defs name = .ok d ∧ resolve h defs' name = .ok d' ∧ R d d' := by
  rw [resolve, resolve]
  generalize Table.get? defs name = found at hrel ⊢
  generalize Table.get? defs' name = found' at hrel ⊢
  cases name.checkKey with
  | error f => exact .inl ⟨_, rfl, rfl⟩
  | ok u =>
    cases hrel with
    | some halike => exact .inr ⟨_, _, rfl, rfl, halike⟩
    | none =>
      left
      cases h.message Header.openKey [("name", name)] with
      | error f => exact ⟨_, rfl, rfl⟩
      | ok m => exact ⟨_, rfl, rfl⟩

/-- A node becomes the same if its name leads to definitions with the same use and the same calls
from their trees, and if its values and the nodes below it give the same. -/
lemma nodeWith_sameUse {R : Definition → Definition → Prop}
    (hR : ∀ d d', R d d' → d.SameUse d' ∧ tree' d'.tree = tree d.tree) {name : Value}
    (hname : Option.Rel R (Table.get? defs name) (Table.get? defs' name))
    {values values' : Table Value Value}
    (hvalues : ∀ d, Argument.listOfValues h d (.table values') true =
      Argument.listOfValues h d (.table values) true)
    {below : Drafting (List Call)} {disabled : Bool} {ns ms : List Node} :
    nodeWith h defs' below tree' (.mk name disabled values' ms) =
      nodeWith h defs below tree (.mk name disabled values ns) := by
  rw [nodeWith, nodeWith]
  split_ifs
  · rfl
  obtain ⟨e, he, he'⟩ | ⟨d, d', hd, hd', hdd'⟩ := resolve_rel (h := h) hname
  · rw [he, he', lift_error_bind, lift_error_bind]
  · obtain ⟨hsame, htree⟩ := hR d d' hdd'
    have hsource : d'.isSourceCode = d.isSourceCode := by
      rw [Definition.isSourceCode, Definition.isSourceCode, hsame.name]
    have hfunction : emitFunction h tree' d' = emitFunction h tree d := by
      funext id args calls
      rw [emitFunction, emitFunction, hsame.codeText, hsame.build, hsame.isEmpty_tree, hsame.name,
        hsame.logLevel, htree]
    have hlink : Draft.link d' = Draft.link d := by
      rw [Draft.link, Draft.link, hsame.name]
    have huser : emitSource d' = emitSource d := by
      funext code calls
      rw [emitSource, emitSource, Draft.nextSourceId, Draft.nextSourceId, hsame.name,
        hsame.logLevel]
    have huse : useWith h below tree' d' = useWith h below tree d := by
      funext args
      unfold useWith
      rw [hsource, hsame.name, huser, hlink, hfunction]
    rw [hd, hd', liftFailure_ok, liftFailure_ok, pure_bind, pure_bind, hsame.listOfValues, hvalues,
      huse]

lemma nodes_cons_disabled {n : Node} (hoff : n.disabled = true) (ns : List Node) :
    nodes h defs tree (n :: ns) = nodes h defs tree ns := by
  obtain ⟨name, disabled, values, children⟩ := n
  obtain rfl : disabled = true := hoff
  rw [nodes, node, nodeWith, if_pos rfl]
  simp

/-- Nodes that are alike become the same calls, in the same way. -/
lemma nodes_alike (hdefs : defs.Alike P defs')
    (ht : ∀ ns ms, Node.Alike P ns ms → tree ns = tree' ms) {ns ms : List Node}
    (hns : Node.Alike P ns ms) : nodes h defs tree ns = nodes h defs' tree' ms := by
  induction hns with
  | nil => rfl
  | left off _ ih => rw [nodes_cons_disabled off, ih]
  | right off _ ih => rw [nodes_cons_disabled off, ih]
  | @both name values below below' ns ms used _ _ ihc ihr =>
    have htrees : ∀ d d' : Definition,
        d.Alike P d' → d.SameUse d' ∧ tree' d'.tree = tree d.tree :=
      fun d d' hd => ⟨hd.sameUse, (ht _ _ hd.nodes).symm⟩
    rw [nodes, nodes, ihr, node, node, ihc, nodeWith_sameUse htrees (hdefs name used) fun _ => rfl]

lemma compileTree_alike (hdefs : defs.Alike P defs') (depth : Nat) {ns ms : List Node}
    (hns : Node.Alike P ns ms) : compileTree h defs depth ns = compileTree h defs' depth ms := by
  induction depth generalizing ns ms with
  | zero => rfl
  | succ depth ih => exact nodes_alike hdefs (fun _ _ => ih) hns

/-- Programs of roots whose trees are alike are the same. -/
lemma program_alike (hdefs : defs.Alike P defs') {root : Definition} {ns : List Node}
    (hroot : Node.Alike P root.tree ns) (values : Value) :
    (program h defs' { root with tree := ns } values).run = (program h defs root values).run := by
  funext s
  refine (run_programWith_congr fun s' => ?_).symm
  -- a depth that is enough for both catalogues
  let depth := max defs.length defs'.length + 1
  calc (compileTree h defs (defs.length + 1) root.tree).run s'
      = (compileTree h defs depth root.tree).run s' := by
        apply compileTree_congr
        · exact Nat.lt_succ_of_le (unlinked_le_length s')
        · exact Nat.lt_succ_of_le ((unlinked_le_length s').trans (le_max_left _ _))
    _ = (compileTree h defs' depth ns).run s' := by
        rw [compileTree_alike hdefs depth hroot]
    _ = (compileTree h defs' (defs'.length + 1) ns).run s' := by
        apply compileTree_congr
        · exact Nat.lt_succ_of_le ((unlinked_le_length s').trans (le_max_right _ _))
        · exact Nat.lt_succ_of_le (unlinked_le_length s')

end Alike

end Compile

/-! ### Nodes that are switched off -/

namespace Node

mutual

/-- A node without those below it that are switched off. -/
def prune : Node → Node
  | .mk name disabled values children => .mk name disabled values (pruneAll children)

/-- Nodes without those that are switched off, at any depth. -/
def pruneAll : List Node → List Node
  | [] => []
  | n :: ns => if n.disabled then pruneAll ns else n.prune :: pruneAll ns

end

lemma alike_pruneAll (ns : List Node) : Alike (fun _ => True) ns (pruneAll ns) := by
  match ns with
  | [] =>
    rw [pruneAll]
    exact .nil
  | .mk name true values children :: ns =>
    rw [pruneAll, disabled, if_pos rfl]
    exact .left rfl (alike_pruneAll ns)
  | .mk name false values children :: ns =>
    rw [pruneAll, disabled, if_neg Bool.false_ne_true, prune]
    exact .both trivial (alike_pruneAll children) (alike_pruneAll ns)

end Node

/-- A definition without the nodes of its tree that are switched off. -/
def Definition.prune (d : Definition) : Definition :=
  { d with tree := Node.pruneAll d.tree }

/-- A catalogue without the nodes of its trees that are switched off. -/
def Catalogue.prune (defs : Catalogue) : Catalogue :=
  defs.map fun e => (e.1, e.2.prune)

lemma Catalogue.get?_prune (defs : Catalogue) (name : Value) :
    Table.get? defs.prune name = (Table.get? defs name).map Definition.prune := by
  induction defs with
  | nil => rfl
  | cons e defs ih =>
    obtain ⟨k, d⟩ := e
    rw [prune, List.map_cons, Table.get?_cons, Table.get?_cons]
    split_ifs
    · rfl
    · exact ih

lemma Catalogue.alike_prune {defs : Catalogue}
    (hdefs : ∀ e ∈ defs, e.2.tree ≠ [] → e.2.prune.tree ≠ []) :
    defs.Alike (fun _ => True) defs.prune := by
  intro name _
  rw [get?_prune]
  cases hget : Table.get? defs name with
  | none => exact .none
  | some d =>
    obtain ⟨k, hmem, -⟩ := Table.exists_mem_of_get? hget
    refine .some (.mk ⟨?_, ?_⟩ (Node.alike_pruneAll d.tree))
    · exact not_imp_not.1 (hdefs _ hmem)
    · intro hempty
      rw [hempty, Node.pruneAll]

namespace Compile

/-- Nodes that are switched off are as good as deleted, at any depth of the tree of the root and of
the trees of definitions, unless this leaves a definition without a tree. -/
theorem disabled_as_deleted {h : Header} {defs : Catalogue} {root : Definition} {values : Value}
    (hdefs : ∀ e ∈ defs, e.2.tree ≠ [] → e.2.prune.tree ≠ []) :
    Draft.empty.perform (program h defs.prune root.prune values) =
      Draft.empty.perform (program h defs root values) := by
  have hrun := program_alike (h := h) (Catalogue.alike_prune hdefs)
    (Node.alike_pruneAll root.tree) values
  rw [Draft.perform, Draft.perform, ← hrun]
  rfl

/-- Definitions with nodes that are switched off beside others in a tree, and below them. -/
def attic : Catalogue :=
  [("trunk", {
      name := "trunk"
      code := "%body%"
      tree := [.mk "ghost" true [] [], .mk "coat" false [] [.mk "ghost" true [] []]] }),
    ("coat", { name := "coat", params := [{ name := "label" }] })]

/-- A root with nodes that are switched off above others, and below them. -/
def atticRoot : Definition where
  name := "main"
  tree := [
    .mk "trunk" true [] [.mk "coat" false [("label", "lost")] []],
    .mk "trunk" false [] [.mk "ghost" true [] [], .mk "coat" false [("label", "kept")] []]]

theorem attic_disabled_as_deleted :
    (∀ e ∈ attic, e.2.tree ≠ [] → e.2.prune.tree ≠ []) ∧
      (Draft.empty.perform (program .standard attic atticRoot (.table []))).1.isOk = true ∧
      Draft.empty.perform (program .standard attic.prune atticRoot.prune (.table [])) =
        Draft.empty.perform (program .standard attic atticRoot (.table [])) := by
  have hdefs : ∀ e ∈ attic, e.2.tree ≠ [] → e.2.prune.tree ≠ [] := by decide
  exact ⟨hdefs, by decide +kernel, disabled_as_deleted hdefs⟩

end Compile

/-! ### Definitions that nothing leads to -/

/-- The names that some nodes lead to: those of the nodes that are switched on, below nodes that
are, and those of such nodes in the trees of the definitions that these names lead to. -/
inductive Catalogue.Reach (defs : Catalogue) (ns : List Node) : Value → Prop
  | node {n : Node} (active : Node.Active (fun _ => True) ns n) : Reach defs ns n.name
  | tree {name : Value} {d : Definition} {n : Node} (reach : Reach defs ns name)
      (found : Table.get? defs name = some d) (active : Node.Active (fun _ => True) d.tree n) :
      Reach defs ns n.name

lemma Node.Active.tail {P : Node → Prop} {n m : Node} {ns : List Node} (hm : Active P ns m) :
    Active P (n :: ns) m := by
  cases hm with
  | top mem on => exact .top (List.mem_cons_of_mem _ mem) on
  | under mem on inside active => exact .under (List.mem_cons_of_mem _ mem) on inside active

/-- Nodes are alike to themselves. -/
lemma Node.alike_self {P : Value → Prop} {ns : List Node}
    (hns : ∀ n, Active (fun _ => True) ns n → P n.name) : Alike P ns ns := by
  match ns with
  | [] => exact .nil
  | .mk name true values children :: ns =>
    exact .left rfl (.right rfl (alike_self fun n hn => hns n hn.tail))
  | .mk name false values children :: ns =>
    refine .both (hns _ (.top List.mem_cons_self rfl)) ?_ (alike_self fun n hn => hns n hn.tail)
    exact alike_self fun n hn => hns n (.under List.mem_cons_self rfl trivial hn)

lemma Catalogue.alike_of_reach {defs defs' : Catalogue} {ns : List Node}
    (hdefs : ∀ name, defs.Reach ns name → Table.get? defs' name = Table.get? defs name) :
    defs.Alike (defs.Reach ns) defs' := by
  intro name hname
  rw [hdefs name hname]
  cases hget : Table.get? defs name with
  | none => exact .none
  | some d => exact .some (.mk Iff.rfl (Node.alike_self fun n hn => .tree hname hget hn))

/-- Two names that no key stands for at once. -/
structure Value.Distinct (v w : Value) : Prop where
  differ : Value.same v w = false
  unrelated : ∀ k, Value.same k v = true → Value.same k w = false

lemma Value.text_distinct {s : String} {v : Value} (hv : v ≠ .text s) : (text s).Distinct v := by
  have hdiffer : Value.same (.text s) v = false :=
    Bool.eq_false_iff.2 fun hsame => hv ((text_same_iff s v).1 hsame)
  refine ⟨hdiffer, fun k hk => ?_⟩
  rw [(same_text_iff k s).1 hk]
  exact hdiffer

namespace Table

variable {α : Type}

lemma get?_put_of_distinct (t : Table Value α) {k k' : Value} (v : α) (hk : k.Distinct k') :
    (t.put k v).get? k' = t.get? k' := by
  induction t with
  | nil => rw [put, get?_cons, if_neg (Bool.eq_false_iff.1 hk.differ)]
  | cons e t ih =>
    obtain ⟨l, w⟩ := e
    rw [put_cons]
    split_ifs with hsame
    · have hother := Bool.eq_false_iff.1 (hk.unrelated l hsame)
      rw [get?_cons, get?_cons, if_neg hother, if_neg hother]
    · rw [get?_cons, get?_cons, ih]

lemma drop_cons (k' : Value) (v : α) (t : Table Value α) (k : Value) :
    Table.drop ((k', v) :: t) k =
      if Value.same k' k = true then Table.drop t k else (k', v) :: Table.drop t k := by
  cases hsame : Value.same k' k <;> simp [drop, TableKey.same, hsame]

lemma get?_drop_of_distinct (t : Table Value α) {k k' : Value} (hk : k.Distinct k') :
    (t.drop k).get? k' = t.get? k' := by
  induction t with
  | nil => rfl
  | cons e t ih =>
    obtain ⟨l, w⟩ := e
    rw [drop_cons, get?_cons]
    split_ifs with hsame hother hother
    · rw [hk.unrelated l hsame] at hother
      cases hother
    · exact ih
    · rw [get?_cons, if_pos hother]
    · rw [get?_cons, if_neg hother, ih]

end Table

namespace Compile

/-- Definitions that the nodes of a root do not lead to make no difference to its program: it is the
same for catalogues that agree on the names that are led to, and so it is when a definition under
another name is added, replaced or dropped. -/
theorem unrelated_definitions (h : Header) (defs : Catalogue) (root : Definition) (values : Value) :
    (∀ defs' : Catalogue,
      (∀ name, defs.Reach root.tree name → Table.get? defs' name = Table.get? defs name) →
      Draft.empty.perform (program h defs' root values) =
        Draft.empty.perform (program h defs root values)) ∧
    (∀ d defs' reports, defs.register d = .ok (defs', reports) →
      (∀ name, defs.Reach root.tree name → d.name.Distinct name) →
      Draft.empty.perform (program h defs' root values) =
        Draft.empty.perform (program h defs root values)) ∧
    ∀ name found defs', defs.unregister name = .ok (found, defs') →
      (∀ name', defs.Reach root.tree name' → name.Distinct name') →
      Draft.empty.perform (program h defs' root values) =
        Draft.empty.perform (program h defs root values) := by
  have hagree : ∀ defs' : Catalogue,
      (∀ name, defs.Reach root.tree name → Table.get? defs' name = Table.get? defs name) →
      Draft.empty.perform (program h defs' root values) =
        Draft.empty.perform (program h defs root values) := by
    intro defs' hdefs
    have hrun := program_alike (h := h) (Catalogue.alike_of_reach hdefs)
      (Node.alike_self fun n hn => .node hn) values
    rw [Draft.perform, Draft.perform, ← hrun]
  refine ⟨hagree, ?_, ?_⟩
  · intro d defs' reports hd hname
    obtain ⟨_, -, hd⟩ := Except.bind_eq_ok_iff.1 hd
    obtain ⟨rfl, -⟩ := Prod.mk.inj (Except.ok.inj hd)
    exact hagree _ fun name hreach => Table.get?_put_of_distinct _ _ (hname name hreach)
  · intro name found defs' hdrop hname
    obtain ⟨_, -, hdrop⟩ := Except.bind_eq_ok_iff.1 hdrop
    obtain ⟨-, rfl⟩ := Prod.mk.inj (Except.ok.inj hdrop)
    exact hagree _ fun name' hreach => Table.get?_drop_of_distinct _ (hname name' hreach)

/-- A definition that the twins do not use. -/
def spare : Definition where
  name := "spare"
  code := "f()"

/-- The twins with a definition that they do not use. -/
def twinsAndSpare : Catalogue := twins ++ [(spare.name, spare)]

lemma mem_of_active_leaves {P : Node → Prop} {ns : List Node} {n : Node}
    (hns : ∀ m ∈ ns, m.children = []) (hn : Node.Active P ns n) : n ∈ ns := by
  cases hn with
  | top mem => exact mem
  | under mem _ _ active =>
    rw [hns _ mem] at active
    cases active with
    | top mem | under mem => cases mem

lemma twinsAndSpare_reach {name : Value} (hname : twinsAndSpare.Reach twinsRoot.tree name) :
    name = "a b" ∨ name = "a-b" ∨ name = "source-code" := by
  induction hname with
  | node active =>
    obtain rfl := List.mem_singleton.1 (mem_of_active_leaves (by decide) active)
    exact .inl rfl
  | tree _ found active ih =>
    obtain rfl | rfl | rfl := ih
    · cases found
      obtain rfl := List.mem_singleton.1 (mem_of_active_leaves (by decide) active)
      exact .inr (.inl rfl)
    · cases found
      obtain rfl | hn := List.mem_cons.1 (mem_of_active_leaves (by decide) active)
      · exact .inl rfl
      · obtain rfl := List.mem_singleton.1 hn
        exact .inr (.inr rfl)
    · cases found
      cases mem_of_active_leaves (by decide) active

theorem twinsAndSpare_unrelated :
    (∀ name, twinsAndSpare.Reach twinsRoot.tree name →
      Table.get? twins name = Table.get? twinsAndSpare name ∧ spare.name.Distinct name) ∧
    (Draft.empty.perform (program .standard twinsAndSpare twinsRoot (.table []))).1.isOk = true ∧
    Draft.empty.perform (program .standard twins twinsRoot (.table [])) =
      Draft.empty.perform (program .standard twinsAndSpare twinsRoot (.table [])) ∧
    (∃ defs reports, twinsAndSpare.register { spare with code := "g()" } = .ok (defs, reports) ∧
      Draft.empty.perform (program .standard defs twinsRoot (.table [])) =
        Draft.empty.perform (program .standard twinsAndSpare twinsRoot (.table []))) ∧
    ∃ found defs, twinsAndSpare.unregister spare.name = .ok (found, defs) ∧
      Draft.empty.perform (program .standard defs twinsRoot (.table [])) =
        Draft.empty.perform (program .standard twinsAndSpare twinsRoot (.table [])) := by
  have hreach : ∀ name, twinsAndSpare.Reach twinsRoot.tree name →
      Table.get? twins name = Table.get? twinsAndSpare name ∧ spare.name.Distinct name := by
    intro name hname
    obtain rfl | rfl | rfl := twinsAndSpare_reach hname
    all_goals exact ⟨rfl, Value.text_distinct (by decide)⟩
  obtain ⟨hagree, hregister, hunregister⟩ :=
    unrelated_definitions .standard twinsAndSpare twinsRoot (.table [])
  refine ⟨hreach, by decide +kernel, hagree twins fun name hname => (hreach name hname).1,
    ⟨_, _, rfl, ?_⟩, ⟨_, _, rfl, ?_⟩⟩
  · exact hregister { spare with code := "g()" } _ _ rfl fun name hname => (hreach name hname).2
  · exact hunregister _ _ _ rfl fun name hname => (hreach name hname).2

end Compile

end NodeScript
