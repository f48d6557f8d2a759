import NodeScript.Proofs.Compilation

/-!
# Compilation comes to an end

Compilation enters the nodes below a node, the rest of a list of nodes and the trees of definitions,
and trees may use each other in any way. Here this recursion is laid open: `unrolled` is one level
of it, in which what lies below is left to a function that is given. A definition is linked before
its tree is entered, so each entry makes a pair of numbers smaller: how many definitions have no
function yet, and how many nodes there are. Levels beyond a bound are therefore never reached, and
neither are names beyond a bound in the search for a free identifier.
-/

namespace NodeScript

/-! ### Sizes of trees -/

namespace Node

mutual

/-- The number of nodes in a tree. -/
def size : Node → Nat
  | .mk _ _ _ children => sizeAll children + 1

/-- The number of nodes in some trees. -/
def sizeAll : List Node → Nat
  | [] => 0
  | n :: ns => n.size + sizeAll ns

end

lemma sizeAll_children_lt (n : Node) (ns : List Node) : sizeAll n.children < sizeAll (n :: ns) := by
  cases n
  simp only [children, sizeAll, size]
  omega

lemma sizeAll_lt_cons (n : Node) (ns : List Node) : sizeAll ns < sizeAll (n :: ns) := by
  cases n
  simp only [sizeAll, size]
  omega

end Node

/-! ### Runs that agree -/

section

variable {σ ε α β : Type}

/-- Sequences agree if their first parts do, and their second parts wherever the first succeed. -/
lemma run_bind_congr {w w' : ExceptT ε (StateM σ) α} {f f' : α → ExceptT ε (StateM σ) β} {s : σ}
    (hw : w.run s = w'.run s)
    (hf : ∀ a s₁, Yields w s a s₁ → (f a).run s₁ = (f' a).run s₁) :
    (w >>= f).run s = (w' >>= f').run s := by
  rcases hr : w.run s with ⟨e | a, s₁⟩
  · rw [run_bind_of_error hr, run_bind_of_error (hw.symm.trans hr)]
  · rw [run_bind_of_ok hr, run_bind_of_ok (hw.symm.trans hr)]
    exact hf a s₁ hr

end

namespace Compile

variable {h : Header} {defs : Table Value Definition}

/-! ### One level of the recursion -/

lemma node_eq_nodeWith (tree : List Node → Drafting (List Call)) (n : Node) :
    node h defs tree n = nodeWith h defs (nodes h defs tree n.children) tree n := by
  cases n
  rw [node]
  rfl

/-- One level of compilation: `rec` compiles whatever nodes are entered from it. -/
def unrolled (h : Header) (defs : Table Value Definition) (rec : List Node → Drafting (List Call)) :
    List Node → Drafting (List Call)
  | [] => return []
  | n :: rest => do
    let calls ← nodeWith h defs (rec n.children) rec n
    let more ← rec rest
    return calls ++ more

/-- Entering nodes from others: the nodes below the first of them, the others, or the tree of a
definition, which is then no longer without a function. -/
inductive Enters (defs : Table Value Definition) : List Node × Draft → List Node × Draft → Prop
  | children {n : Node} {ns : List Node} {s s' : Draft} (le : unlinked defs s' ≤ unlinked defs s) :
      Enters defs (n :: ns, s) (n.children, s')
  | rest {n : Node} {ns : List Node} {s s' : Draft} (le : unlinked defs s' ≤ unlinked defs s) :
      Enters defs (n :: ns, s) (ns, s')
  | tree {n : Node} {ns : List Node} {s s' : Draft} {k : Value} {d : Definition}
      (mem : (k, d) ∈ defs) (lt : unlinked defs s' < unlinked defs s) :
      Enters defs (n :: ns, s) (d.tree, s')

/-! ### What a level depends on -/

section Agreement

variable {below below' : Drafting (List Call)} {tree tree' : List Node → Drafting (List Call)}

lemma emitFunction_congr {s : Draft} {d : Definition} {id : String} {args : List Argument}
    {calls : List Call}
    (ht : ∀ s', s.Extends s' → (tree d.tree).run s' = (tree' d.tree).run s') :
    (emitFunction h tree d id args calls).run s = (emitFunction h tree' d id args calls).run s := by
  rw [emitFunction, emitFunction]
  refine run_bind_congr rfl fun code s₁ hcode => ?_
  obtain ⟨-, rfl⟩ := yields_liftFault_iff.1 hcode
  dsimp only
  split_ifs with hempty
  · rfl
  · refine run_bind_congr rfl fun predefined s₂ hpre => ?_
    have hextends : s₁.Extends s₂ := by
      refine extends_of_predefinedOf (h := h) (d := d) (i := predefined) ?_
      rw [predefinedOf, if_neg hempty]
      exact hpre
    exact run_bind_congr (ht _ hextends) fun _ _ _ => rfl

/-- What becomes of a node depends on its arguments, on the nodes below it and on the tree of its
definition. The tree is entered with a link to the definition, and so are the nodes below it, unless
the node is code of the user. -/
lemma nodeWith_congr {s : Draft} {n : Node} {room room' : Option Nat}
    (hargs : ∀ d c, resolve h defs n.name = .ok d →
      (Argument.listOfValues h d (.table n.values) true room).run c =
        (Argument.listOfValues h d (.table n.values) true room').run c)
    (hkeep : ∀ s₁ cs s₂, s.Extends s₁ → Yields below s₁ cs s₂ → s₁.Extends s₂)
    (hsource : ∀ d s', resolve h defs n.name = .ok d → d.isSourceCode = true → s.Extends s' →
      below.run s' = below'.run s')
    (hfirst : ∀ d id s', resolve h defs n.name = .ok d → d.isSourceCode = false →
      s.linked.get? d.name = none → s.Extends s' → s'.linked.get? d.name = some id →
      below.run s' = below'.run s' ∧ (tree d.tree).run s' = (tree' d.tree).run s') :
    (nodeWith h defs below tree n room).run s = (nodeWith h defs below' tree' n room').run s := by
  obtain ⟨name, disabled, values, children⟩ := n
  rw [nodeWith, nodeWith]
  split_ifs
  · rfl
  refine run_bind_congr rfl fun d s₁ hd => ?_
  obtain ⟨hresolved, rfl⟩ := yields_liftFailure_iff.1 hd
  have hmake : (Draft.interning (Argument.listOfValues h d (.table values) true room)).run s₁ =
      (Draft.interning (Argument.listOfValues h d (.table values) true room')).run s₁ := by
    have hrun := hargs d s₁.constants hresolved
    rw [Node.values] at hrun
    rw [run_interning, run_interning, hrun]
  refine run_bind_congr hmake fun args s₂ hmade => ?_
  obtain ⟨c, hc, rfl⟩ := yields_interning_iff.1 hmade
  have hextends : s₁.Extends { s₁ with constants := c } :=
    ⟨id, (Argument.yields_listOfValues hc).2.1⟩
  unfold useWith
  split_ifs with hsourceCode
  · split
    · exact run_bind_congr (hsource d _ hresolved hsourceCode hextends) fun _ _ _ => rfl
    · rfl
  · refine run_bind_congr rfl fun s₂ s₃ hget => ?_
    obtain ⟨rfl, rfl⟩ := yields_get_iff.1 hget
    split
    · rfl
    · next hnew =>
      have hordinary : d.isSourceCode = false := Bool.eq_false_iff.2 hsourceCode
      refine run_bind_congr rfl fun id s₃ hid => ?_
      have hlink := hextends.trans (Draft.extends_of_link hid hnew)
      have hlinked := Draft.linked_of_link hid
      refine run_bind_congr (hfirst d id _ hresolved hordinary hnew hlink hlinked).1
        fun calls s₄ hcalls => ?_
      have hcalled := hkeep _ _ _ hlink hcalls
      refine run_bind_congr (emitFunction_congr fun s' hs' => ?_) fun _ _ _ => rfl
      have hs' := hcalled.trans hs'
      exact (hfirst d id s' hresolved hordinary hnew (hlink.trans hs') (hs'.linked hlinked)).2

mutual

lemma node_congr {depth : Nat} (hf : TreesFollow h defs depth tree)
    (ht : ∀ ms s, unlinked defs s < depth → (tree ms).run s = (tree' ms).run s) (n : Node)
    {s : Draft} (hs : unlinked defs s ≤ depth) :
    (node h defs tree n).run s = (node h defs tree' n).run s := by
  match n with
  | .mk name disabled values children =>
    have hbelow : ∀ s', s.Extends s' →
        (nodes h defs tree children).run s' = (nodes h defs tree' children).run s' :=
      fun s' hs' => nodes_congr hf ht children ((unlinked_le hs').trans hs)
    rw [node_eq_nodeWith, node_eq_nodeWith]
    refine nodeWith_congr ?_ ?_ ?_ ?_
    · intro d c _
      rfl
    · intro s₁ cs s₂ hs₁ hcs
      obtain ⟨vs, hvs⟩ := nodes_compiles hf children ((unlinked_le hs₁).trans hs) hcs
      exact hvs.extension
    · intro d s' _ _ hs'
      exact hbelow s' hs'
    · intro d id s' hd _ hnew hs' hlinked
      obtain ⟨k, hmem, -⟩ := Table.exists_mem_of_get? (get?_of_resolve hd)
      exact ⟨hbelow s' hs', ht _ _ ((unlinked_lt hs' hmem hnew hlinked).trans_le hs)⟩
termination_by structural n

lemma nodes_congr {depth : Nat} (hf : TreesFollow h defs depth tree)
    (ht : ∀ ms s, unlinked defs s < depth → (tree ms).run s = (tree' ms).run s) (ns : List Node)
    {s : Draft} (hs : unlinked defs s ≤ depth) :
    (nodes h defs tree ns).run s = (nodes h defs tree' ns).run s := by
  match ns with
  | [] => rfl
  | n :: ns =>
    rw [nodes, nodes]
    refine run_bind_congr (node_congr hf ht n hs) fun calls s₁ hn => ?_
    obtain ⟨vs, hvs⟩ := node_compiles hf n hs hn
    have hs₁ := (unlinked_le hvs.extension).trans hs
    exact run_bind_congr (nodes_congr hf ht ns hs₁) fun _ _ _ => rfl
termination_by structural ns

end

lemma TreesFollow.mono {depth depth' : Nat} (hf : TreesFollow h defs depth tree)
    (hle : depth' ≤ depth) : TreesFollow h defs depth' tree :=
  fun ns s cs s' hs => hf ns s cs s' (hs.trans_le hle)

end Agreement

/-- The number of levels makes no difference if it is more than the number of definitions without a
function. -/
lemma compileTree_congr {depth depth' : Nat} {ns : List Node} {s : Draft}
    (hs : unlinked defs s < depth) (hs' : unlinked defs s < depth') :
    (compileTree h defs depth ns).run s = (compileTree h defs depth' ns).run s := by
  induction depth generalizing depth' ns s with
  | zero => cases hs
  | succ depth ih =>
    cases depth' with
    | zero => cases hs'
    | succ depth' =>
      have hle := Nat.lt_succ_iff.1 hs
      have hle' := Nat.lt_succ_iff.1 hs'
      have hf : TreesFollow h defs depth (compileTree h defs depth) :=
        fun _ _ _ _ => compileTree_compiles
      exact nodes_congr (hf.mono hle)
        (fun ms s₁ hs₁ => ih (hs₁.trans_le hle) (hs₁.trans_le hle')) ns le_rfl

/-- One level of the recursion gives what compilation gives, if what is entered from it does. -/
lemma unrolled_run {rec : List Node → Drafting (List Call)} {ns : List Node} {s : Draft}
    (hrec : ∀ ms s', Enters defs (ns, s) (ms, s') →
      (rec ms).run s' = (compileNodes h defs ms).run s') :
    (unrolled h defs rec ns).run s = (compileNodes h defs ns).run s := by
  cases ns with
  | nil => rfl
  | cons n ns =>
    have hf : TreesFollow h defs defs.length (compileTree h defs defs.length) :=
      fun _ _ _ _ => compileTree_compiles
    have hcons : compileNodes h defs (n :: ns) = (do
        let calls ← node h defs (compileTree h defs defs.length) n
        let more ← compileNodes h defs ns
        return calls ++ more) := rfl
    rw [hcons, unrolled, node_eq_nodeWith]
    symm
    refine run_bind_congr ?_ fun calls s₁ hn => ?_
    · refine nodeWith_congr ?_ ?_ ?_ ?_
      · intro d c _
        rfl
      · intro s₁ cs s₂ _ hcs
        obtain ⟨vs, hvs⟩ := nodes_compiles hf n.children (unlinked_le_length s₁) hcs
        exact hvs.extension
      · intro d s' _ _ hs'
        exact (hrec _ _ (.children (unlinked_le hs'))).symm
      · intro d id s' hd _ hnew hs' hlinked
        obtain ⟨k, hmem, -⟩ := Table.exists_mem_of_get? (get?_of_resolve hd)
        have hlt := unlinked_lt hs' hmem hnew hlinked
        refine ⟨(hrec _ _ (.children hlt.le)).symm, ?_⟩
        rw [hrec _ _ (.tree hmem hlt)]
        have hfree := hlt.trans_le (unlinked_le_length s)
        exact compileTree_congr hfree (Nat.lt_succ_of_lt hfree)
    · rw [← node_eq_nodeWith] at hn
      obtain ⟨vs, hvs⟩ := node_compiles hf n (unlinked_le_length s) hn
      exact run_bind_congr (hrec _ _ (.rest (unlinked_le hvs.extension))).symm fun _ _ _ => rfl

/-- Compiles a node, and in the same way what is entered from it. -/
def visit (h : Header) (defs : Table Value Definition) (n : Node) : Drafting (List Call) :=
  nodeWith h defs (compileNodes h defs n.children) (compileNodes h defs) n

/-- Nodes are compiled one after the other. -/
lemma compileNodes_eq (ns : List Node) :
    compileNodes h defs ns = eachNode (visit h defs) ns := by
  induction ns with
  | nil => rfl
  | cons n ns ih =>
    have hlevel : compileNodes h defs (n :: ns) =
        unrolled h defs (compileNodes h defs) (n :: ns) :=
      funext fun s => (unrolled_run fun _ _ _ => rfl).symm
    rw [hlevel, unrolled, eachNode, ← ih]
    rfl

lemma compileNodes_cons (n : Node) (ns : List Node) :
    compileNodes h defs (n :: ns) = (do
      let calls ← visit h defs n
      let more ← compileNodes h defs ns
      return calls ++ more) := by
  rw [compileNodes_eq, compileNodes_eq, eachNode]

/-! ### What follows the rules is compiled -/

section Completeness

variable {n : Node} {ns : List Node} {d : Definition} {args : List Argument} {s s₁ s' : Draft}

lemma yields_compileNodes_cons {a b : List Call} (hn : Yields (visit h defs n) s a s₁)
    (hns : Yields (compileNodes h defs ns) s₁ b s') :
    Yields (compileNodes h defs (n :: ns)) s (a ++ b) s' := by
  rw [compileNodes_cons]
  exact yields_bind_iff.2 ⟨a, s₁, hn, yields_bind_iff.2 ⟨b, s', hns, rfl⟩⟩

/-- Once its arguments are made, a node is compiled as a use of its definition. -/
lemma Uses.run_visit (hu : Uses h defs n d args s s₁) :
    (visit h defs n).run s =
      (useWith h (compileNodes h defs n.children) (compileNodes h defs) d args).run s₁ := by
  obtain ⟨on, resolved, coerced⟩ := hu
  obtain ⟨name, disabled, values, children⟩ := n
  obtain rfl : disabled = false := on
  have hresolve : Yields (liftM (resolve h defs name) : Drafting Definition) s d s :=
    yields_liftFailure_iff.2 ⟨resolved, rfl⟩
  rw [visit, nodeWith, if_neg Bool.false_ne_true]
  exact (run_bind_of_ok hresolve).trans (run_bind_of_ok coerced)

lemma Uses.yields_visit {cs : List Call} (hu : Uses h defs n d args s s₁)
    (hcs : Yields (useWith h (compileNodes h defs n.children) (compileNodes h defs) d args)
      s₁ cs s') : Yields (visit h defs n) s cs s' :=
  hu.run_visit.trans hcs

lemma yields_emitFunction_of {id code : String} {predefined : Option Nat} {calls inner : List Call}
    {s₂ s₃ : Draft} (hcode : d.codeText = .ok code)
    (hpre : Yields (predefinedOf h d) s predefined s₁)
    (htree : Yields (compileNodes h defs d.tree) s₁ inner s₂)
    (hadd : Yields
      (Draft.addFunction (functionOf d id args code calls predefined inner)) s₂ () s₃) :
    Yields (emitFunction h (compileNodes h defs) d id args calls) s () s₃ := by
  rw [emitFunction, yields_bind_iff]
  refine ⟨code, s, yields_liftFault_iff.2 ⟨hcode, rfl⟩, ?_⟩
  rw [predefinedOf] at hpre
  rw [functionOf] at hadd
  by_cases hempty : d.tree.isEmpty = true
  · rw [if_pos hempty] at hpre hadd
    rw [List.isEmpty_iff.1 hempty] at htree
    obtain ⟨rfl, rfl⟩ := yields_pure_iff.1 hpre
    obtain ⟨rfl, rfl⟩ := yields_pure_iff.1 htree
    dsimp only
    rw [if_pos hempty]
    exact yields_bind_iff.2 ⟨none, _, rfl, hadd⟩
  · rw [if_neg hempty] at hpre hadd
    dsimp only
    rw [if_neg hempty, yields_bind_iff]
    refine ⟨predefined, s₁, hpre, yields_bind_iff.2 ⟨inner, s₂, htree, ?_⟩⟩
    exact yields_bind_iff.2 ⟨_, s₂, rfl, hadd⟩

lemma yields_useWith_again {below : Drafting (List Call)} {tree : List Node → Drafting (List Call)}
    {id : String} (ordinary : d.isSourceCode = false) (linked : s.linked.get? d.name = some id) :
    Yields (useWith h below tree d args) s [⟨id, args.map (·.operand)⟩] s := by
  unfold useWith
  rw [if_neg (by simp [ordinary]), Yields, run_get_bind, linked]
  rfl

lemma run_useWith_first {below : Drafting (List Call)} {tree : List Node → Drafting (List Call)}
    (ordinary : d.isSourceCode = false) (new : s.linked.get? d.name = none) :
    (useWith h below tree d args).run s = (do
      let id ← Draft.link d
      let calls ← below
      emitFunction h tree d id args calls
      return [⟨id, args.map (·.operand)⟩] : Drafting (List Call)).run s := by
  unfold useWith
  rw [if_neg (by simp [ordinary]), run_get_bind, new]

lemma run_useWith_source {below : Drafting (List Call)} {tree : List Node → Drafting (List Call)}
    {flag code : Argument} {more : List Argument} (source : d.isSourceCode = true) :
    (useWith h below tree d (flag :: code :: more)).run s = (do
      let calls ← below
      if flag.operand.render == "true" then
        Draft.addBlock (.source (fillBody code.operand.render calls))
        return []
      else emitSource d code.operand.render calls : Drafting (List Call)).run s := by
  unfold useWith
  rw [if_pos source]

/-- What the rules say is what compilation does. -/
lemma Compiles.yields {cs : List Call} {vs : List Visit} (hc : Compiles h defs ns s cs s' vs) :
    Yields (compileNodes h defs ns) s cs s' := by
  induction hc with
  | nil s => rfl
  | @disabled n _ s _ _ _ off _ ih =>
    refine yields_compileNodes_cons (a := []) ?_ ih
    obtain ⟨name, disabled, values, children⟩ := n
    obtain rfl : disabled = true := off
    rfl
  | again uses ordinary linked _ ih =>
    exact yields_compileNodes_cons (uses.yields_visit (yields_useWith_again ordinary linked)) ih
  | first uses ordinary new link _ codeText interned _ add _ ihc iht ih =>
    refine yields_compileNodes_cons (a := [_]) (uses.yields_visit ?_) ih
    refine (run_useWith_first ordinary new).trans ?_
    refine yields_bind_iff.2 ⟨_, _, link, yields_bind_iff.2 ⟨_, _, ihc, ?_⟩⟩
    exact yields_bind_iff.2 ⟨(), _, yields_emitFunction_of codeText interned iht add, rfl⟩
  | topLevel uses source _ marked add _ ihc ih =>
    refine yields_compileNodes_cons (a := []) (uses.yields_visit ?_) ih
    refine (run_useWith_source source).trans (yields_bind_iff.2 ⟨_, _, ihc, ?_⟩)
    rw [if_pos (by simp [marked])]
    exact yields_bind_iff.2 ⟨(), _, add, rfl⟩
  | inline uses source _ unmarked number add _ ihc ih =>
    refine yields_compileNodes_cons (a := [_]) (uses.yields_visit ?_) ih
    refine (run_useWith_source source).trans (yields_bind_iff.2 ⟨_, _, ihc, ?_⟩)
    rw [if_neg (by simp [unmarked]), emitSource]
    exact yields_bind_iff.2 ⟨_, _, number, yields_bind_iff.2 ⟨(), _, add, rfl⟩⟩

end Completeness

/-! ### How many levels there are -/

/-- The definitions without a function, and the nodes, where some nodes are entered. -/
def weight (defs : Table Value Definition) (x : List Node × Draft) : Nat × Nat :=
  (unlinked defs x.2, Node.sizeAll x.1)

lemma Enters.weight_lt {x y : List Node × Draft} (hxy : Enters defs x y) :
    Prod.Lex (· < ·) (· < ·) (weight defs y) (weight defs x) := by
  cases hxy with
  | children le =>
    apply Prod.Lex.right'
    · exact le
    · exact Node.sizeAll_children_lt _ _
  | rest le =>
    apply Prod.Lex.right'
    · exact le
    · exact Node.sizeAll_lt_cons _ _
  | tree mem lt => exact Prod.Lex.left _ _ lt

/-- The number of nodes in all trees of definitions. -/
def treesSize (defs : Table Value Definition) : Nat :=
  (defs.map fun e => Node.sizeAll e.2.tree).sum

/-- A bound on the levels of the recursion. -/
def levels (defs : Table Value Definition) (free : Nat) (ns : List Node) : Nat :=
  Node.sizeAll ns + free * (treesSize defs + 1) + 1

lemma sizeAll_tree_le {k : Value} {d : Definition} (hd : (k, d) ∈ defs) :
    Node.sizeAll d.tree ≤ treesSize defs :=
  List.single_le_sum (by simp) _ (List.mem_map_of_mem (f := fun e => Node.sizeAll e.2.tree) hd)

lemma Enters.levels_lt {ns ms : List Node} {s s' : Draft} (he : Enters defs (ns, s) (ms, s')) :
    levels defs (unlinked defs s') ms < levels defs (unlinked defs s) ns := by
  unfold levels
  cases he with
  | @children n ns _ _ le =>
    have hsize := Node.sizeAll_children_lt n ns
    have hfree := Nat.mul_le_mul_right (treesSize defs + 1) le
    omega
  | @rest n ns _ _ le =>
    have hsize := Node.sizeAll_lt_cons n ms
    have hfree := Nat.mul_le_mul_right (treesSize defs + 1) le
    omega
  | @tree n ns _ _ k d mem lt =>
    have hsize := sizeAll_tree_le mem
    have hpos := Node.sizeAll_lt_cons n ns
    -- the nodes of one tree fit into the share of the definition that is linked
    have hfree := Nat.mul_le_mul_right (treesSize defs + 1) lt
    rw [Nat.succ_mul] at hfree
    omega

/-- As many levels as the bound says are all that there are: what is put in the place of those below
them makes no difference. -/
lemma iterate_unrolled_run {rec : List Node → Drafting (List Call)} {n : Nat} {ns : List Node}
    {s : Draft} (hn : levels defs (unlinked defs s) ns ≤ n) :
    ((unrolled h defs)^[n] rec ns).run s = (compileNodes h defs ns).run s := by
  induction n generalizing ns s with
  | zero => cases hn
  | succ n ih =>
    rw [Function.iterate_succ_apply']
    refine unrolled_run fun ms s' he => ih ?_
    exact Nat.lt_succ_iff.1 (he.levels_lt.trans_le hn)

/-- A program depends on its tree only by the calls that the tree becomes. -/
lemma run_programWith_congr {tree tree' : List Node → Drafting (List Call)} {root : Definition}
    {ns : List Node} {values : Value} {s : Draft}
    (htree : ∀ s', (tree root.tree).run s' = (tree' ns).run s') :
    (programWith h tree root values).run s =
      (programWith h tree' { root with tree := ns } values).run s := by
  rw [programWith, programWith]
  refine run_bind_congr rfl fun params s₁ _ => ?_
  refine run_bind_congr rfl fun code s₂ _ => ?_
  refine run_bind_congr rfl fun predefined s₃ _ => ?_
  exact run_bind_congr (htree s₃) fun _ _ _ => rfl

lemma programWith_run {rec : List Node → Drafting (List Call)} {root : Definition} {values : Value}
    {s : Draft} :
    (programWith h ((unrolled h defs)^[levels defs defs.length root.tree] rec) root values).run s =
      (program h defs root values).run s := by
  refine run_programWith_congr fun s' => iterate_unrolled_run ?_
  have hfree : unlinked defs s' * (treesSize defs + 1) ≤ defs.length * (treesSize defs + 1) :=
    Nat.mul_le_mul_right _ (unlinked_le_length s')
  unfold levels
  omega

end Compile

/-! ### The search for an identifier -/

namespace Draft

/-- One step of a search for a name that is not in use: `rec` goes on with the next number. -/
def search (ids : List String) (name : Nat → String) (rec : Nat → Nat) (k : Nat) : Nat :=
  if ids.contains (name k) then rec (k + 1) else k

/-- The names that are tried for a definition, in order: the wanted one, then numbered ones. -/
def candidate (base : String) : Nat → String
  | 0 => base
  | k + 1 => base ++ toString (k + 2)

/-- A search stops at the first name that is free. -/
lemma iterate_search {ids : List String} {name : Nat → String} {rec : Nat → Nat} {n k start : Nat}
    (hk : k < n) (htaken : ∀ j < k, name (start + j) ∈ ids) (hfree : name (start + k) ∉ ids) :
    (search ids name)^[n] rec start = start + k := by
  induction k generalizing n start with
  | zero =>
    obtain ⟨n, rfl⟩ := Nat.exists_eq_add_one_of_ne_zero hk.ne_bot
    rw [Function.iterate_succ_apply', search, if_neg (by simpa using hfree)]
    rfl
  | succ k ih =>
    obtain ⟨n, rfl⟩ := Nat.exists_eq_add_one_of_ne_zero (Nat.ne_zero_of_lt hk)
    rw [Function.iterate_succ_apply', search, if_pos (by simpa using htaken 0 (Nat.succ_pos k)),
      ih (Nat.lt_of_succ_lt_succ hk)]
    · omega
    · intro j hj
      have := htaken (j + 1) (Nat.succ_lt_succ hj)
      rwa [Nat.add_comm j, ← Nat.add_assoc] at this
    · rwa [Nat.add_assoc, Nat.add_comm 1]

/-- The search for a number of code of the user ends. -/
lemma iterate_search_firstFree (ids : List String) (base : String) (start : Nat) (rec : Nat → Nat) :
    (search ids fun n => base ++ toString n)^[ids.length + 1] rec start =
      firstFree ids (fun n => base ++ toString n) start := by
  obtain ⟨k, hk, heq, htaken, hfree⟩ := firstFree_spec ids (numbered_injective base) start
  rw [heq]
  exact iterate_search (Nat.lt_succ_of_le hk) htaken hfree

/-- The search for the identifier of a definition ends. -/
lemma candidate_iterate_search (ids : List String) (base : String) (rec : Nat → Nat) :
    candidate base ((search ids (candidate base))^[ids.length + 2] rec 0) = freshId ids base := by
  rw [freshId]
  split_ifs with hbase
  · obtain ⟨k, hk, heq, htaken, hfree⟩ := firstFree_spec ids (numbered_injective base) 2
    dsimp only
    rw [heq, iterate_search (k := k + 1)]
    · rw [Nat.zero_add, candidate, Nat.add_comm k]
    · omega
    · intro j hj
      rw [Nat.zero_add]
      cases j with
      | zero => simpa [candidate] using hbase
      | succ j =>
        rw [candidate, Nat.add_comm j]
        exact htaken j (Nat.lt_of_succ_lt_succ hj)
    · rw [Nat.zero_add, candidate, Nat.add_comm k]
      exact hfree
  · rw [iterate_search (k := 0)]
    · rfl
    · omega
    · simp
    · simpa [candidate] using hbase

end Draft

namespace Compile

/-- Compilation comes to an end on every input. Each entry into nodes makes the weight smaller; one
level of the recursion needs what is entered from it and nothing else; so a program is made within
a bounded number of levels, and an identifier is found within a bounded number of steps. -/
theorem compilation_terminates (h : Header) (defs : Table Value Definition) :
    (∀ x y, Enters defs x y → Prod.Lex (· < ·) (· < ·) (weight defs y) (weight defs x)) ∧
    (∀ rec ns s,
      (∀ ms s', Enters defs (ns, s) (ms, s') →
        (rec ms).run s' = (compileNodes h defs ms).run s') →
      (unrolled h defs rec ns).run s = (compileNodes h defs ns).run s) ∧
    (∀ rec root values s,
      (programWith h ((unrolled h defs)^[levels defs defs.length root.tree] rec)
          root values).run s =
        (program h defs root values).run s) ∧
    (∀ rec ids base,
      Draft.candidate base ((Draft.search ids (Draft.candidate base))^[ids.length + 2] rec 0) =
        Draft.freshId ids base) ∧
    ∀ rec ids base start,
      (Draft.search ids fun n => base ++ toString n)^[ids.length + 1] rec start =
        Draft.firstFree ids (fun n => base ++ toString n) start := by
  refine ⟨?_, ?_, ?_, ?_, ?_⟩
  · intro x y hxy
    exact hxy.weight_lt
  · intro rec ns s hrec
    exact unrolled_run hrec
  · intro rec root values s
    exact programWith_run
  · intro rec ids base
    exact Draft.candidate_iterate_search ids base rec
  · intro rec ids base start
    exact Draft.iterate_search_firstFree ids base start rec

end Compile

end NodeScript
