import NodeScript.Proofs.Nesting
import NodeScript.Proofs.Termination

/-!
# Compilations that are interrupted

A compilation that fails keeps what it did: the constants, the blocks and the links. A definition is
linked before its function is built, so a failure in between leaves a link without a function, and
later uses of the definition become calls of a function that is not there.

`Compile.Fails` gives the rules by which a compilation fails, with the functions that are open then.
`Draft.Accounts` says that the identifiers in use are those of the functions that are there and of
the functions that are missing. A compilation that succeeds leaves the account as it is, and one
that fails enters the functions that are open.
-/

namespace NodeScript

/-! ### Work that fails -/

section

variable {σ ε α β : Type} {s s' : σ} {e : ε}

/-- Work on a state fails and leaves another state. -/
def Stops (w : ExceptT ε (StateM σ) α) (s : σ) (e : ε) (s' : σ) : Prop :=
  w.run s = (.error e, s')

/-- Work that succeeds does not fail. -/
lemma stops_iff_false {w : ExceptT ε (StateM σ) α} {a : α} {t : σ} (hw : Yields w s a t) :
    Stops w s e s' ↔ False := by
  rw [Stops, iff_false]
  intro hstops
  cases hw.symm.trans hstops

lemma stops_pure_iff {a : α} : Stops (pure a : ExceptT ε (StateM σ) α) s e s' ↔ False :=
  stops_iff_false rfl

/-- A sequence fails in its first part, or in its second part after the first. -/
lemma stops_bind_iff {w : ExceptT ε (StateM σ) α} {f : α → ExceptT ε (StateM σ) β} :
    Stops (w >>= f) s e s' ↔
      Stops w s e s' ∨ ∃ a s₁, Yields w s a s₁ ∧ Stops (f a) s₁ e s' := by
  unfold Stops Yields
  rcases hw : w.run s with ⟨e' | a, s₁⟩
  · rw [run_bind_of_error hw]
    constructor
    · intro h
      cases h
      exact .inl rfl
    · rintro (h | ⟨_, _, h, _⟩)
      · cases h
        rfl
      · cases h
  · rw [run_bind_of_ok hw]
    constructor
    · intro h
      exact .inr ⟨a, s₁, rfl, h⟩
    · rintro (h | ⟨_, _, h, hf⟩)
      · cases h
      · cases h
        exact hf

lemma stops_throw_iff {e' : ε} :
    Stops (throw e' : ExceptT ε (StateM σ) α) s e s' ↔ e = e' ∧ s' = s := by
  constructor
  · intro h
    cases h
    exact ⟨rfl, rfl⟩
  · rintro ⟨rfl, rfl⟩
    rfl

lemma stops_get_iff : Stops (get : ExceptT ε (StateM σ) σ) s e s' ↔ False :=
  stops_iff_false rfl

lemma stops_set_iff {t : σ} : Stops (set t : ExceptT ε (StateM σ) PUnit) s e s' ↔ False :=
  stops_iff_false rfl

lemma stops_modify_iff {f : σ → σ} :
    Stops (modify f : ExceptT ε (StateM σ) PUnit) s e s' ↔ False :=
  stops_iff_false rfl

end

section

variable {σ α : Type} {s s' : σ} {e : Failure}

lemma stops_liftFailure_iff {r : Except Failure α} :
    Stops (liftM r : ExceptT Failure (StateM σ) α) s e s' ↔ r = .error e ∧ s' = s := by
  constructor
  · intro h
    cases h
    exact ⟨rfl, rfl⟩
  · rintro ⟨rfl, rfl⟩
    rfl

lemma stops_liftFault_iff {r : Except Fault α} :
    Stops (liftM r : ExceptT Failure (StateM σ) α) s e s' ↔
      (∃ f, r = .error f ∧ e = .fault f) ∧ s' = s := by
  have hlift : (liftM r : ExceptT Failure (StateM σ) α) =
      liftM (r.mapError Failure.fault) := rfl
  rw [hlift, stops_liftFailure_iff]
  cases r with
  | error f => simp [Except.mapError, eq_comm]
  | ok a => simp [Except.mapError]

lemma stops_interning_iff {w : Interning α} {d d' : Draft} :
    Stops (Draft.interning w) d e d' ↔
      ∃ c, Stops w d.constants e c ∧ d' = { d with constants := c } :=
  run_interning_eq_iff

end

namespace Compile

/-! ### The rules of failure -/

/-- Compilation comes to a node: what stands before the node is compiled, and so is what comes first
in the functions around it. The last argument lists the functions that are open then, from the
outermost to the innermost: each with its identifier, and with the name of the definition that is
linked to it. -/
inductive Comes (h : Header) (defs : Table Value Definition) :
    List Node → Draft → Node → Draft → List (Value × String) → Prop
  | here {n : Node} {ns : List Node} {s : Draft} (on : n.disabled = false) :
      Comes h defs (n :: ns) s n s []
  | later {n m : Node} {ns : List Node} {s s₁ s' : Draft} {cs : List Call} {vs : List Visit}
      {opened : List (Value × String)} (first : Compiles h defs [n] s cs s₁ vs)
      (rest : Comes h defs ns s₁ m s' opened) : Comes h defs (n :: ns) s m s' opened
  /-- The node is below code of the user. -/
  | underSource {n m : Node} {ns : List Node} {d : Definition} {args : List Argument}
      {s s₁ s' : Draft} {opened : List (Value × String)} (uses : Uses h defs n d args s s₁)
      (source : d.isSourceCode = true) (enough : 2 ≤ args.length)
      (children : Comes h defs n.children s₁ m s' opened) : Comes h defs (n :: ns) s m s' opened
  /-- The node is below a use of a new definition. -/
  | underFirst {n m : Node} {ns : List Node} {d : Definition} {args : List Argument} {id : String}
      {s s₁ s₂ s' : Draft} {opened : List (Value × String)} (uses : Uses h defs n d args s s₁)
      (ordinary : d.isSourceCode = false) (new : s₁.linked.get? d.name = none)
      (link : Yields (Draft.link d) s₁ id s₂)
      (children : Comes h defs n.children s₂ m s' opened) :
      Comes h defs (n :: ns) s m s' ((d.name, id) :: opened)
  /-- The node is in the tree of a new definition. -/
  | inTree {n m : Node} {ns : List Node} {d : Definition} {args : List Argument} {id code : String}
      {s s₁ s₂ s₃ s₄ s' : Draft} {predefined : Option Nat} {below : List Call} {vs : List Visit}
      {opened : List (Value × String)} (uses : Uses h defs n d args s s₁)
      (ordinary : d.isSourceCode = false) (new : s₁.linked.get? d.name = none)
      (link : Yields (Draft.link d) s₁ id s₂)
      (children : Compiles h defs n.children s₂ below s₃ vs) (codeText : d.codeText = .ok code)
      (interned : Yields (predefinedOf h d) s₃ predefined s₄)
      (tree : Comes h defs d.tree s₄ m s' opened) :
      Comes h defs (n :: ns) s m s' ((d.name, id) :: opened)

/-- Compilation fails at a node itself, in a draft in which it comes to the node. The last argument
is the function of the node, if it is open then. -/
inductive FailsAt (h : Header) (defs : Table Value Definition) (n : Node) (s : Draft) :
    Failure → Draft → List (Value × String) → Prop
  /-- The definition of the node is not found. -/
  | unresolved {e : Failure} (unknown : resolve h defs n.name = .error e) :
      FailsAt h defs n s e s []
  /-- The arguments of the node cannot be made. -/
  | uncoerced {d : Definition} {s' : Draft} {e : Failure} (resolved : resolve h defs n.name = .ok d)
      (stops : Stops (Draft.interning (Argument.listOfValues h d (.table n.values) true)) s e s') :
      FailsAt h defs n s e s' []
  /-- Code of the user lacks its parameters. -/
  | incomplete {d : Definition} {args : List Argument} {s' : Draft}
      (uses : Uses h defs n d args s s') (source : d.isSourceCode = true) (few : args.length < 2) :
      FailsAt h defs n s (.sourceIncomplete d.name) s' []
  /-- The definition cannot be linked. -/
  | unlinked {d : Definition} {args : List Argument} {s₁ s' : Draft} {e : Failure}
      (uses : Uses h defs n d args s s₁) (ordinary : d.isSourceCode = false)
      (new : s₁.linked.get? d.name = none) (stops : Stops (Draft.link d) s₁ e s') :
      FailsAt h defs n s e s' []
  /-- The code or the variables of a new definition are at fault. -/
  | unbuilt {d : Definition} {args : List Argument} {id : String} {s₁ s₂ s₃ s' : Draft}
      {e : Failure} {below : List Call} {vs : List Visit} (uses : Uses h defs n d args s s₁)
      (ordinary : d.isSourceCode = false) (new : s₁.linked.get? d.name = none)
      (link : Yields (Draft.link d) s₁ id s₂)
      (children : Compiles h defs n.children s₂ below s₃ vs)
      (stops : (∃ f, d.codeText = .error f ∧ e = .fault f) ∧ s' = s₃ ∨
        (∃ code, d.codeText = .ok code) ∧ Stops (predefinedOf h d) s₃ e s') :
      FailsAt h defs n s e s' [(d.name, id)]

/-- The rules by which a compilation of nodes fails: it comes to a node and fails there. -/
inductive Fails (h : Header) (defs : Table Value Definition) (ns : List Node) (s : Draft)
    (e : Failure) (s' : Draft) : List (Value × String) → Prop
  | mk {n : Node} {s₁ : Draft} {outer own : List (Value × String)}
      (comes : Comes h defs ns s n s₁ outer) (fails : FailsAt h defs n s₁ e s' own) :
      Fails h defs ns s e s' (outer ++ own)

namespace Fails

variable {h : Header} {defs : Table Value Definition} {n : Node} {ns : List Node} {d : Definition}
  {args : List Argument} {id : String} {s s₁ s₂ s' : Draft} {e : Failure}
  {opened : List (Value × String)}

lemma here (on : n.disabled = false) (hf : FailsAt h defs n s e s' opened) :
    Fails h defs (n :: ns) s e s' opened :=
  ⟨.here on, hf⟩

lemma later {cs : List Call} {vs : List Visit} (first : Compiles h defs [n] s cs s₁ vs)
    (hf : Fails h defs ns s₁ e s' opened) : Fails h defs (n :: ns) s e s' opened := by
  obtain ⟨comes, fails⟩ := hf
  exact ⟨.later first comes, fails⟩

lemma underSource (uses : Uses h defs n d args s s₁) (source : d.isSourceCode = true)
    (enough : 2 ≤ args.length) (hf : Fails h defs n.children s₁ e s' opened) :
    Fails h defs (n :: ns) s e s' opened := by
  obtain ⟨comes, fails⟩ := hf
  exact ⟨.underSource uses source enough comes, fails⟩

lemma underFirst (uses : Uses h defs n d args s s₁) (ordinary : d.isSourceCode = false)
    (new : s₁.linked.get? d.name = none) (link : Yields (Draft.link d) s₁ id s₂)
    (hf : Fails h defs n.children s₂ e s' opened) :
    Fails h defs (n :: ns) s e s' ((d.name, id) :: opened) := by
  obtain ⟨comes, fails⟩ := hf
  exact ⟨.underFirst uses ordinary new link comes, fails⟩

lemma inTree {code : String} {predefined : Option Nat} {below : List Call} {vs : List Visit}
    {s₃ s₄ : Draft} (uses : Uses h defs n d args s s₁) (ordinary : d.isSourceCode = false)
    (new : s₁.linked.get? d.name = none) (link : Yields (Draft.link d) s₁ id s₂)
    (children : Compiles h defs n.children s₂ below s₃ vs) (codeText : d.codeText = .ok code)
    (interned : Yields (predefinedOf h d) s₃ predefined s₄)
    (hf : Fails h defs d.tree s₄ e s' opened) :
    Fails h defs (n :: ns) s e s' ((d.name, id) :: opened) := by
  obtain ⟨comes, fails⟩ := hf
  exact ⟨.inTree uses ordinary new link children codeText interned comes, fails⟩

end Fails

/-! ### Compilation fails by the rules -/

lemma not_stops_addFunction {f : FunctionBlock} {s s' : Draft} {e : Failure} :
    ¬ Stops (Draft.addFunction f) s e s' := by
  rw [Draft.addFunction, stops_bind_iff]
  rintro (h | ⟨_, _, _, h⟩)
  · exact stops_modify_iff.1 h
  · exact stops_modify_iff.1 h

/-- A number is found for any code of the user. -/
lemma not_stops_nextSourceId {d : Definition} (hd : d.isSourceCode = true) {s s' : Draft}
    {e : Failure} : ¬ Stops (Draft.nextSourceId d) s e s' := by
  have hname : d.name = .text Definition.sourceCodeName := (Value.same_text_iff _ _).1 hd
  simp only [Draft.nextSourceId, stops_bind_iff, stops_liftFault_iff, stops_get_iff, stops_set_iff,
    stops_pure_iff, hname, Identifier.ofValue]
  simp

lemma stops_emitFunction {h : Header} {tree : List Node → Drafting (List Call)} {d : Definition}
    {id : String} {args : List Argument} {calls : List Call} {s s' : Draft} {e : Failure}
    (he : Stops (emitFunction h tree d id args calls) s e s') :
    (((∃ f, d.codeText = .error f ∧ e = .fault f) ∧ s' = s ∨
        (∃ code, d.codeText = .ok code) ∧ Stops (predefinedOf h d) s e s') ∨
      ∃ code predefined s₁, d.codeText = .ok code ∧ Yields (predefinedOf h d) s predefined s₁ ∧
        Stops (tree d.tree) s₁ e s') := by
  rw [emitFunction, stops_bind_iff, stops_liftFault_iff] at he
  obtain he | ⟨code, _, hcode, he⟩ := he
  · exact .inl (.inl he)
  · obtain ⟨htext, rfl⟩ := yields_liftFault_iff.1 hcode
    rw [predefinedOf]
    by_cases hempty : d.tree.isEmpty = true
    · simp only [if_pos hempty, stops_bind_iff, stops_pure_iff, false_or] at he
      obtain ⟨_, _, -, hadd⟩ := he
      exact (not_stops_addFunction hadd).elim
    · simp only [if_neg hempty, stops_bind_iff, stops_pure_iff, false_or] at he ⊢
      obtain hpre | ⟨predefined, s₁, hpre, htree | ⟨_, _, -, _, _, -, hadd⟩⟩ := he
      · exact .inl (.inr ⟨⟨code, htext⟩, hpre⟩)
      · exact .inr ⟨code, predefined, s₁, htext, hpre, htree⟩
      · exact (not_stops_addFunction hadd).elim

lemma eq_of_stops_link {d : Definition} {s s' : Draft} {e : Failure}
    (hlink : Stops (Draft.link d) s e s') : s' = s := by
  simp only [Draft.link, stops_bind_iff, stops_liftFault_iff, stops_get_iff, stops_set_iff,
    stops_pure_iff, and_false, exists_false, or_false] at hlink
  exact hlink.2

lemma stops_predefinedOf {h : Header} {d : Definition} {s s' : Draft} {e : Failure}
    (hpre : Stops (predefinedOf h d) s e s') : ∃ c, s' = { s with constants := c } := by
  rw [predefinedOf] at hpre
  split_ifs at hpre
  · exact (stops_pure_iff.1 hpre).elim
  · obtain ⟨c, -, rfl⟩ := stops_interning_iff.1 hpre
    exact ⟨c, rfl⟩

section Bound

variable {h : Header} {defs : Table Value Definition} {depth : Nat}
  {tree : List Node → Drafting (List Call)}

/-- Trees that are entered with fewer definitions unlinked than `depth` fail by the rules. -/
def TreesFail (h : Header) (defs : Table Value Definition) (depth : Nat)
    (tree : List Node → Drafting (List Call)) : Prop :=
  ∀ ns s e s', unlinked defs s < depth → Stops (tree ns) s e s' →
    ∃ opened, Fails h defs ns s e s' opened

lemma source_fails {n : Node} {d : Definition} {args : List Argument} {s s₁ s' : Draft}
    {e : Failure} (uses : Uses h defs n d args s s₁) (hsource : d.isSourceCode = true)
    (hchildren : Stops (nodes h defs tree n.children) s₁ e s' →
      ∃ opened, Fails h defs n.children s₁ e s' opened)
    (hn : Stops (useWith h (nodes h defs tree n.children) tree d args) s₁ e s') (ns : List Node) :
    ∃ opened, Fails h defs (n :: ns) s e s' opened := by
  unfold useWith at hn
  rw [if_pos hsource] at hn
  split at hn
  case h_2 hargs =>
    obtain ⟨rfl, rfl⟩ := stops_throw_iff.1 hn
    refine ⟨[], .here uses.enabled (.incomplete uses hsource ?_)⟩
    rcases args with _ | ⟨flag, _ | ⟨code, more⟩⟩
    · simp
    · simp
    · exact (hargs _ _ _ rfl).elim
  case h_1 flag code more =>
    obtain hn | ⟨below, s₂, -, hn⟩ := stops_bind_iff.1 hn
    · obtain ⟨opened, hfails⟩ := hchildren hn
      exact ⟨opened, .underSource uses hsource (by simp) hfails⟩
    · split_ifs at hn
      · simp only [stops_bind_iff, stops_pure_iff, and_false, exists_false, or_false] at hn
        exact (stops_modify_iff.1 hn).elim
      · simp only [emitSource, stops_bind_iff, stops_pure_iff, and_false, exists_false,
          or_false] at hn
        obtain hid | ⟨_, _, -, hadd⟩ := hn
        · exact (not_stops_nextSourceId hsource hid).elim
        · exact (not_stops_addFunction hadd).elim

lemma first_fails (hf : TreesFail h defs depth tree) {n : Node} {d : Definition}
    {args : List Argument} {id : String} {s s₁ s₂ s₃ s' : Draft} {e : Failure} {below : List Call}
    {vs : List Visit} (uses : Uses h defs n d args s s₁) (ordinary : d.isSourceCode = false)
    (hs : unlinked defs s₁ ≤ depth) (new : s₁.linked.get? d.name = none)
    (hid : Yields (Draft.link d) s₁ id s₂)
    (children : Compiles h defs n.children s₂ below s₃ vs)
    (hn : Stops (emitFunction h tree d id args below) s₃ e s') (ns : List Node) :
    ∃ opened, Fails h defs (n :: ns) s e s' opened := by
  obtain hstops | ⟨code, predefined, s₄, hcode, hpre, htree⟩ := stops_emitFunction hn
  · exact ⟨_, .here uses.enabled (.unbuilt uses ordinary new hid children hstops)⟩
  · -- The definition is linked by now, so fewer are left than before its node.
    obtain ⟨k, hmem, -⟩ := Table.exists_mem_of_get? (get?_of_resolve uses.resolved)
    have hle : unlinked defs s₄ ≤ unlinked defs s₂ :=
      unlinked_le (children.extension.trans (extends_of_predefinedOf hpre))
    have hlt := unlinked_lt (Draft.extends_of_link hid new) hmem new (Draft.linked_of_link hid)
    obtain ⟨opened, hfails⟩ := hf _ _ _ _ (hle.trans_lt (hlt.trans_le hs)) htree
    exact ⟨_, .inTree uses ordinary new hid children hcode hpre hfails⟩

mutual

lemma node_fails (ht : TreesFollow h defs depth tree) (hf : TreesFail h defs depth tree) (n : Node)
    {s s' : Draft} {e : Failure} (hs : unlinked defs s ≤ depth)
    (hn : Stops (node h defs tree n) s e s') (ns : List Node) :
    ∃ opened, Fails h defs (n :: ns) s e s' opened := by
  match n with
  | .mk name disabled values children =>
    rw [node, nodeWith] at hn
    by_cases hoff : disabled = true
    · rw [if_pos hoff] at hn
      exact (stops_pure_iff.1 hn).elim
    · rw [if_neg hoff] at hn
      have hon : disabled = false := Bool.eq_false_iff.2 hoff
      simp only [stops_bind_iff, stops_liftFailure_iff, yields_liftFailure_iff] at hn
      obtain ⟨hd, rfl⟩ | ⟨d, _, ⟨hd, rfl⟩, hargs | ⟨args, s₁, hargs, hn⟩⟩ := hn
      · exact ⟨[], .here hon (.unresolved hd)⟩
      · exact ⟨[], .here hon (.uncoerced hd hargs)⟩
      have uses : Uses h defs (.mk name disabled values children) d args _ s₁ := ⟨hon, hd, hargs⟩
      have hs₁ : unlinked defs s₁ ≤ depth := (unlinked_le uses.extension).trans hs
      by_cases hsource : d.isSourceCode = true
      · exact source_fails uses hsource (nodes_fails ht hf children hs₁) hn ns
      · unfold useWith at hn
        rw [if_neg hsource] at hn
        have hordinary : d.isSourceCode = false := Bool.eq_false_iff.2 hsource
        simp only [stops_bind_iff, stops_get_iff, yields_get_iff, false_or] at hn
        obtain ⟨_, _, ⟨rfl, rfl⟩, hn⟩ := hn
        split at hn
        case h_1 => exact (stops_pure_iff.1 hn).elim
        case h_2 hnew =>
          simp only [stops_bind_iff, stops_pure_iff, and_false, exists_false, or_false] at hn
          obtain hid | ⟨id, s₂, hid, hbelow | ⟨below, s₃, hbelow, hn⟩⟩ := hn
          · exact ⟨[], .here uses.enabled (.unlinked uses hordinary hnew hid)⟩
          all_goals have hs₂ := (unlinked_le (Draft.extends_of_link hid hnew)).trans hs₁
          · obtain ⟨opened, hfails⟩ := nodes_fails ht hf children hs₂ hbelow
            exact ⟨_, .underFirst uses hordinary hnew hid hfails⟩
          · obtain ⟨vs, hvs⟩ := nodes_compiles ht children hs₂ hbelow
            exact first_fails hf uses hordinary hs₁ hnew hid hvs hn ns
termination_by structural n

lemma nodes_fails (ht : TreesFollow h defs depth tree) (hf : TreesFail h defs depth tree)
    (ns : List Node) {s s' : Draft} {e : Failure} (hs : unlinked defs s ≤ depth)
    (hns : Stops (nodes h defs tree ns) s e s') :
    ∃ opened, Fails h defs ns s e s' opened := by
  match ns with
  | [] => exact (stops_pure_iff.1 hns).elim
  | n :: ns =>
    simp only [nodes, stops_bind_iff, stops_pure_iff, and_false, exists_false, or_false] at hns
    obtain hn | ⟨calls, s₁, hn, hns⟩ := hns
    · exact node_fails ht hf n hs hn ns
    · obtain ⟨vs, hvs⟩ := node_compiles ht n hs hn
      obtain ⟨opened, hfails⟩ := nodes_fails ht hf ns ((unlinked_le hvs.extension).trans hs) hns
      exact ⟨opened, .later hvs hfails⟩
termination_by structural ns

end

end Bound

/-- A compilation that fails does so by the rules, if its depth is more than the number of
definitions that have no function yet. -/
lemma compileTree_fails {h : Header} {defs : Table Value Definition} {depth : Nat} {ns : List Node}
    {s s' : Draft} {e : Failure} (hs : unlinked defs s < depth)
    (hns : Stops (compileTree h defs depth ns) s e s') :
    ∃ opened, Fails h defs ns s e s' opened := by
  induction depth generalizing ns s e s' with
  | zero => cases hs
  | succ depth ih =>
    exact nodes_fails (fun _ _ _ _ => compileTree_compiles) (fun _ _ _ _ => ih) ns
      (Nat.lt_succ_iff.1 hs) hns

/-! ### What fails by the rules fails -/

section Completeness

variable {h : Header} {defs : Table Value Definition} {n : Node} {ns : List Node} {d : Definition}
  {args : List Argument} {s s₁ s' : Draft} {e : Failure} {opened : List (Value × String)}

lemma stops_compileNodes_of_visit (hn : Stops (visit h defs n) s e s') (ns : List Node) :
    Stops (compileNodes h defs (n :: ns)) s e s' := by
  rw [compileNodes_cons]
  exact stops_bind_iff.2 (.inl hn)

lemma Compiles.yields_visit {cs : List Call} {vs : List Visit}
    (hc : Compiles h defs [n] s cs s' vs) : Yields (visit h defs n) s cs s' := by
  have hcs := hc.yields
  simp only [compileNodes_eq, eachNode, yields_bind_iff, yields_pure_iff] at hcs
  obtain ⟨a, s₁, ha, _, _, ⟨rfl, rfl⟩, rfl, rfl⟩ := hcs
  rwa [List.append_nil]

lemma stops_compileNodes_of_rest {cs : List Call} {vs : List Visit}
    (hn : Compiles h defs [n] s cs s₁ vs) (hns : Stops (compileNodes h defs ns) s₁ e s') :
    Stops (compileNodes h defs (n :: ns)) s e s' := by
  rw [compileNodes_cons]
  exact stops_bind_iff.2 (.inr ⟨cs, s₁, hn.yields_visit, stops_bind_iff.2 (.inl hns)⟩)

lemma Uses.stops_visit (hu : Uses h defs n d args s s₁)
    (hstops : Stops (useWith h (compileNodes h defs n.children) (compileNodes h defs) d args)
      s₁ e s') : Stops (visit h defs n) s e s' :=
  hu.run_visit.trans hstops

/-- A use of a new definition fails once it is linked and the nodes below it are compiled. -/
lemma Uses.stops_first {id : String} {below : List Call} {vs : List Visit} {s₂ s₃ : Draft}
    (hu : Uses h defs n d args s s₁) (ordinary : d.isSourceCode = false)
    (new : s₁.linked.get? d.name = none) (link : Yields (Draft.link d) s₁ id s₂)
    (children : Compiles h defs n.children s₂ below s₃ vs)
    (hstops : Stops (emitFunction h (compileNodes h defs) d id args below) s₃ e s') :
    Stops (visit h defs n) s e s' := by
  refine hu.stops_visit ((run_useWith_first ordinary new).trans ?_)
  refine stops_bind_iff.2 (.inr ⟨id, s₂, link, stops_bind_iff.2 (.inr ⟨below, s₃, ?_⟩)⟩)
  exact ⟨children.yields, stops_bind_iff.2 (.inl hstops)⟩

lemma stops_emitFunction_of_predefined {tree : List Node → Drafting (List Call)} {id code : String}
    {calls : List Call} (hcode : d.codeText = .ok code) (hpre : Stops (predefinedOf h d) s e s') :
    Stops (emitFunction h tree d id args calls) s e s' := by
  rw [predefinedOf] at hpre
  rw [emitFunction]
  refine stops_bind_iff.2 (.inr ⟨code, s, yields_liftFault_iff.2 ⟨hcode, rfl⟩, ?_⟩)
  split_ifs at hpre with hempty
  · exact (stops_pure_iff.1 hpre).elim
  · dsimp only
    rw [if_neg hempty]
    exact stops_bind_iff.2 (.inl hpre)

lemma stops_emitFunction_of_tree {id code : String} {predefined : Option Nat} {calls : List Call}
    (hcode : d.codeText = .ok code) (hpre : Yields (predefinedOf h d) s predefined s₁)
    (htree : Stops (compileNodes h defs d.tree) s₁ e s') :
    Stops (emitFunction h (compileNodes h defs) d id args calls) s e s' := by
  rw [predefinedOf] at hpre
  rw [emitFunction]
  refine stops_bind_iff.2 (.inr ⟨code, s, yields_liftFault_iff.2 ⟨hcode, rfl⟩, ?_⟩)
  split_ifs at hpre with hempty
  · rw [List.isEmpty_iff.1 hempty] at htree
    exact (stops_pure_iff.1 htree).elim
  · dsimp only
    rw [if_neg hempty]
    exact stops_bind_iff.2 (.inr ⟨predefined, s₁, hpre, stops_bind_iff.2 (.inl htree)⟩)

lemma FailsAt.stops (hf : FailsAt h defs n s e s' opened) (on : n.disabled = false) :
    Stops (visit h defs n) s e s' := by
  cases hf with
  | unresolved unknown =>
    obtain ⟨name, disabled, values, children⟩ := n
    obtain rfl : disabled = false := on
    rw [visit, nodeWith, if_neg Bool.false_ne_true]
    exact stops_bind_iff.2 (.inl (stops_liftFailure_iff.2 ⟨unknown, rfl⟩))
  | @uncoerced d _ _ resolved stops =>
    obtain ⟨name, disabled, values, children⟩ := n
    obtain rfl : disabled = false := on
    rw [visit, nodeWith, if_neg Bool.false_ne_true]
    refine stops_bind_iff.2 (.inr ⟨d, s, yields_liftFailure_iff.2 ⟨resolved, rfl⟩, ?_⟩)
    exact stops_bind_iff.2 (.inl stops)
  | @incomplete d args _ uses source few =>
    refine uses.stops_visit ?_
    unfold useWith
    rw [if_pos source]
    rcases args with _ | ⟨flag, _ | ⟨code, more⟩⟩
    · exact stops_throw_iff.2 ⟨rfl, rfl⟩
    · exact stops_throw_iff.2 ⟨rfl, rfl⟩
    · exact absurd few (by simp)
  | unlinked uses ordinary new stops =>
    refine uses.stops_visit ((run_useWith_first ordinary new).trans ?_)
    exact stops_bind_iff.2 (.inl stops)
  | unbuilt uses ordinary new link children stops =>
    refine uses.stops_first ordinary new link children ?_
    obtain ⟨⟨f, hcode, rfl⟩, rfl⟩ | ⟨⟨code, hcode⟩, hpre⟩ := stops
    · rw [emitFunction]
      exact stops_bind_iff.2 (.inl (stops_liftFault_iff.2 ⟨⟨f, hcode, rfl⟩, rfl⟩))
    · exact stops_emitFunction_of_predefined hcode hpre

lemma Comes.stops (hc : Comes h defs ns s n s₁ opened)
    (hn : n.disabled = false → Stops (visit h defs n) s₁ e s') :
    Stops (compileNodes h defs ns) s e s' := by
  induction hc with
  | here on => exact stops_compileNodes_of_visit (hn on) _
  | later first _ ih => exact stops_compileNodes_of_rest first (ih hn)
  | @underSource n _ _ d args _ _ _ _ uses source enough _ ih =>
    refine stops_compileNodes_of_visit (uses.stops_visit ?_) _
    rcases args with _ | ⟨flag, _ | ⟨code, more⟩⟩
    · exact absurd enough (by simp)
    · exact absurd enough (by simp)
    · exact (run_useWith_source source).trans (stops_bind_iff.2 (.inl (ih hn)))
  | underFirst uses ordinary new link _ ih =>
    refine stops_compileNodes_of_visit (uses.stops_visit ?_) _
    refine (run_useWith_first ordinary new).trans ?_
    exact stops_bind_iff.2 (.inr ⟨_, _, link, stops_bind_iff.2 (.inl (ih hn))⟩)
  | inTree uses ordinary new link children codeText interned _ ih =>
    refine stops_compileNodes_of_visit (uses.stops_first ordinary new link children ?_) _
    exact stops_emitFunction_of_tree codeText interned (ih hn)

/-- A compilation fails if it does so by the rules, and only then. -/
lemma stops_compileNodes_iff :
    Stops (compileNodes h defs ns) s e s' ↔ ∃ opened, Fails h defs ns s e s' opened := by
  constructor
  · exact compileTree_fails (Nat.lt_succ_of_le (unlinked_le_length s))
  · rintro ⟨_, comes, fails⟩
    exact comes.stops fails.stops

end Completeness

end Compile

/-! ### Functions that are missing -/

/-- The identifiers of the functions in some blocks. -/
def functionIds (bs : List Block) : List String :=
  (bs.filterMap Block.function?).map (·.id)

lemma mem_functionIds_iff {bs : List Block} {id : String} :
    id ∈ functionIds bs ↔ HasFunction bs id := by
  simp only [functionIds, List.mem_map, List.mem_filterMap, HasFunction]
  constructor
  · rintro ⟨f, ⟨b, hb, hf⟩, rfl⟩
    cases b with
    | function g => cases hf; exact ⟨f, hb, rfl⟩
    | source code => cases hf
  · rintro ⟨f, hf, rfl⟩
    exact ⟨f, ⟨_, hf, rfl⟩, rfl⟩

lemma functionIds_append_visits (bs : List Block) (vs : List Visit) :
    functionIds (bs ++ vs.filterMap Visit.block) = functionIds bs ++ Visit.builtIds vs := by
  rw [functionIds, List.filterMap_append, List.map_append, List.filterMap_filterMap]
  rfl

namespace Draft

/-- A name is linked to a function that is in no block. -/
def Missing (s : Draft) (name : Value) (id : String) : Prop :=
  s.linked.get? name = some id ∧ ¬ HasFunction s.blocks id

/-- The identifiers in use are those of the functions in blocks and those of the functions that are
missing, and the links lead to these functions. -/
structure Accounts (s : Draft) (missing : List (Value × String)) : Prop where
  ids : s.ids.Perm (functionIds s.blocks ++ missing.map Prod.snd)
  nodup : s.ids.Nodup
  linked : ∀ {name id}, s.linked.get? name = some id →
    HasFunction s.blocks id ∨ (name, id) ∈ missing
  missing : ∀ {name id}, (name, id) ∈ missing → s.linked.get? name = some id

namespace Accounts

variable {s s' : Draft} {missing : List (Value × String)}

lemma empty : Draft.empty.Accounts [] where
  ids := .refl _
  nodup := List.nodup_nil
  linked hid := by cases hid
  missing hmem := by cases hmem

lemma missing_iff (hs : s.Accounts missing) {name : Value} {id : String} :
    s.Missing name id ↔ (name, id) ∈ missing := by
  constructor
  · rintro ⟨hid, hnone⟩
    exact (hs.linked hid).resolve_left hnone
  · intro hmem
    refine ⟨hs.missing hmem, fun hfun => ?_⟩
    have hdisjoint := List.disjoint_of_nodup_append (hs.ids.nodup_iff.1 hs.nodup)
    exact hdisjoint (mem_functionIds_iff.2 hfun) (List.mem_map_of_mem hmem)

/-- Constants do not matter. -/
lemma constants (hs : s.Accounts missing) (c : Constants) :
    ({ s with constants := c } : Draft).Accounts missing :=
  ⟨hs.ids, hs.nodup, hs.linked, hs.missing⟩

/-- A definition that is linked has no function yet. -/
lemma link (hs : s.Accounts missing) {d : Definition} {id : String}
    (hnew : s.linked.get? d.name = none) (hlink : Yields (Draft.link d) s id s') :
    s'.Accounts (missing ++ [(d.name, id)]) := by
  have hext := extends_of_link hlink hnew
  have hself := linked_of_link hlink
  obtain ⟨text, hname, hid, rfl⟩ := yields_link hlink
  refine ⟨?_, ?_, ?_, ?_⟩
  · rw [List.map_append, ← List.append_assoc]
    exact hs.ids.append_right [id]
  · exact List.concat_eq_append ▸ hs.nodup.concat hid
  · intro name id' hid'
    simp only [hname, Table.get?_put_text] at hid'
    split_ifs at hid' with hk
    · cases hid'
      rw [hk, hname]
      exact .inr (by simp)
    · exact (hs.linked hid').imp_right fun hmem => List.mem_append_left _ hmem
  · intro name id' hmem
    obtain hmem | hmem := List.mem_append.1 hmem
    · exact hext.linked (hs.missing hmem)
    · cases List.mem_singleton.1 hmem
      exact hself

end Accounts

end Draft

namespace Compile

variable {h : Header} {defs : Catalogue} {ns : List Node} {s s' : Draft} {cs : List Call}
  {vs : List Visit} {e : Failure} {missing opened : List (Value × String)}

lemma Compiles.hasFunction_of_visit (hc : Compiles h defs ns s cs s' vs) {v : Visit} (hv : v ∈ vs)
    {f : FunctionBlock} (hf : v.block = some (.function f)) : HasFunction s'.blocks f.id := by
  refine ⟨f, ?_, rfl⟩
  rw [hc.blocks_eq]
  exact List.mem_append_right _ (List.mem_filterMap.2 ⟨v, hv, hf⟩)

/-- A compilation that succeeds leaves no function missing that was not, and builds none that
was. -/
lemma Compiles.accounts (hc : Compiles h defs ns s cs s' vs) (hs : s.Accounts missing) :
    s'.Accounts missing := by
  refine ⟨?_, hc.ids_nodup hs.nodup, ?_, fun hmem => hc.extension.linked (hs.missing hmem)⟩
  · rw [hc.blocks_eq, functionIds_append_visits, List.append_assoc]
    refine hc.ids_perm.trans ((hs.ids.append_right _).trans ?_)
    rw [List.append_assoc]
    exact List.perm_append_comm.append_left _
  · intro name id hid
    obtain hid | ⟨v, hv, f, -, -, hf, rfl⟩ := hc.linked hid
    · exact (hs.linked hid).imp_left hc.hasFunction_mono
    · exact .inl (hc.hasFunction_of_visit hv hf)

lemma Comes.accounts {n : Node} (hc : Comes h defs ns s n s' opened) (hs : s.Accounts missing) :
    s'.Accounts (missing ++ opened) := by
  induction hc generalizing missing with
  | here => rwa [List.append_nil]
  | later first _ ih => exact ih (first.accounts hs)
  | underSource uses _ _ _ ih =>
    obtain ⟨c, rfl, -⟩ := uses.only_constants
    exact ih (hs.constants c)
  | underFirst uses _ new link _ ih =>
    obtain ⟨c, rfl, -⟩ := uses.only_constants
    rw [List.append_cons]
    exact ih ((hs.constants c).link new link)
  | inTree uses _ new link children _ interned _ ih =>
    obtain ⟨c, rfl, -⟩ := uses.only_constants
    have hs₃ := children.accounts ((hs.constants c).link new link)
    obtain ⟨c', rfl, -⟩ := yields_predefinedOf interned
    rw [List.append_cons]
    exact ih (hs₃.constants c')

lemma FailsAt.accounts {n : Node} (hf : FailsAt h defs n s e s' opened) (hs : s.Accounts missing) :
    s'.Accounts (missing ++ opened) := by
  cases hf with
  | unresolved => rwa [List.append_nil]
  | uncoerced _ stops =>
    obtain ⟨c, -, rfl⟩ := stops_interning_iff.1 stops
    rw [List.append_nil]
    exact hs.constants c
  | incomplete uses =>
    obtain ⟨c, rfl, -⟩ := uses.only_constants
    rw [List.append_nil]
    exact hs.constants c
  | unlinked uses _ _ stops =>
    obtain ⟨c, rfl, -⟩ := uses.only_constants
    obtain rfl := eq_of_stops_link stops
    rw [List.append_nil]
    exact hs.constants c
  | unbuilt uses _ new link children stops =>
    obtain ⟨c, rfl, -⟩ := uses.only_constants
    have hs₃ := children.accounts ((hs.constants c).link new link)
    obtain ⟨-, rfl⟩ | ⟨-, stops⟩ := stops
    · exact hs₃
    · obtain ⟨c', rfl⟩ := stops_predefinedOf stops
      exact hs₃.constants c'

/-- A compilation that fails leaves the functions missing that are open then. -/
lemma Fails.accounts (hf : Fails h defs ns s e s' opened) (hs : s.Accounts missing) :
    s'.Accounts (missing ++ opened) := by
  obtain ⟨comes, fails⟩ := hf
  rw [← List.append_assoc]
  exact fails.accounts (comes.accounts hs)

/-- A property of drafts that compilations keep. A compilation that fails links definitions before
it does so, and nodes may have been compiled by then. -/
structure Kept (P : Draft → Prop) : Prop where
  empty : P .empty
  constants : ∀ {s : Draft} (c : Constants), P s → P { s with constants := c }
  link : ∀ {s s' : Draft} {d : Definition} {id : String}, Yields (Draft.link d) s id s' → P s → P s'
  compiles : ∀ {h : Header} {defs : Catalogue} {ns : List Node} {s s' : Draft} {cs : List Call}
    {vs : List Visit}, Compiles h defs ns s cs s' vs → P s → P s'

section Keeps

variable {P : Draft → Prop} {n : Node}

lemma Comes.keeps (hP : Kept P) (hc : Comes h defs ns s n s' opened) (hs : P s) : P s' := by
  induction hc with
  | here => exact hs
  | later first _ ih => exact ih (hP.compiles first hs)
  | underSource uses _ _ _ ih =>
    obtain ⟨c, rfl, -⟩ := uses.only_constants
    exact ih (hP.constants c hs)
  | underFirst uses _ _ link _ ih =>
    obtain ⟨c, rfl, -⟩ := uses.only_constants
    exact ih (hP.link link (hP.constants c hs))
  | inTree uses _ _ link children _ interned _ ih =>
    obtain ⟨c, rfl, -⟩ := uses.only_constants
    have hs₃ := hP.compiles children (hP.link link (hP.constants c hs))
    obtain ⟨c', rfl, -⟩ := yields_predefinedOf interned
    exact ih (hP.constants c' hs₃)

lemma FailsAt.keeps (hP : Kept P) (hf : FailsAt h defs n s e s' opened) (hs : P s) : P s' := by
  cases hf with
  | unresolved => exact hs
  | uncoerced _ stops =>
    obtain ⟨c, -, rfl⟩ := stops_interning_iff.1 stops
    exact hP.constants c hs
  | incomplete uses =>
    obtain ⟨c, rfl, -⟩ := uses.only_constants
    exact hP.constants c hs
  | unlinked uses _ _ stops =>
    obtain ⟨c, rfl, -⟩ := uses.only_constants
    obtain rfl := eq_of_stops_link stops
    exact hP.constants c hs
  | unbuilt uses _ _ link children stops =>
    obtain ⟨c, rfl, -⟩ := uses.only_constants
    have hs₃ := hP.compiles children (hP.link link (hP.constants c hs))
    obtain ⟨-, rfl⟩ | ⟨-, stops⟩ := stops
    · exact hs₃
    · obtain ⟨c', rfl⟩ := stops_predefinedOf stops
      exact hP.constants c' hs₃

lemma Fails.keeps (hP : Kept P) (hf : Fails h defs ns s e s' opened) (hs : P s) : P s' := by
  obtain ⟨comes, fails⟩ := hf
  exact fails.keeps hP (comes.keeps hP hs)

end Keeps

/-- The draft of a program that compiles is that of its tree, up to constants. -/
lemma compiles_of_program {root : Definition} {values : Value} {p : Program} {reports : Journal}
    (hp : Draft.empty.perform (program h defs root values) = (.ok p, s', reports)) :
    ∃ c c' s₁ vs, Compiles h defs root.tree { Draft.empty with constants := c } p.run.calls s₁ vs ∧
      s' = { s₁ with constants := c' } := by
  have hs : Yields (program h defs root values) .empty p s' := Draft.run_of_perform hp
  simp only [program, programWith, Draft.report, yields_bind_iff, yields_liftFault_iff,
    yields_interning_iff, yields_get_iff, yields_modify_iff, yields_pure_iff] at hs
  obtain ⟨_, _, ⟨c₁, -, rfl⟩, _, _, ⟨-, rfl⟩, _, _, ⟨c₂, -, rfl⟩, calls, s₃, hcalls, _, _,
    ⟨rfl, rfl⟩, _, _, rfl, rfl, rfl⟩ := hs
  obtain ⟨vs, hvs⟩ := compiles_of_compileNodes hcalls
  exact ⟨c₂, _, _, vs, hvs, rfl⟩

/-- A program that compiles leaves no function missing. -/
lemma accounts_of_program {root : Definition} {values : Value} {p : Program} {reports : Journal}
    (hp : Draft.empty.perform (program h defs root values) = (.ok p, s', reports)) :
    s'.Accounts [] := by
  obtain ⟨c, c', s₁, vs, hvs, rfl⟩ := compiles_of_program hp
  exact (hvs.accounts (Draft.Accounts.empty.constants c)).constants c'

/-- A program fails for its values, its code or its variables, or because its tree does. -/
lemma stops_program_iff {root : Definition} {values : Value} :
    Stops (program h defs root values) s e s' ↔
      (∃ c, Stops (Argument.listOfValues h root values false) s.constants e c ∧
        s' = { s with constants := c }) ∨
      ∃ args c, Yields (Argument.listOfValues h root values false) s.constants args c ∧
        ((∃ f, root.codeText = .error f ∧ e = .fault f) ∧ s' = { s with constants := c } ∨
        ∃ code, root.codeText = .ok code ∧
          ((∃ c', Stops (Predefined.build root h.lang) c e c' ∧ s' = { s with constants := c' }) ∨
          ∃ i c', Yields (Predefined.build root h.lang) c i c' ∧
            Stops (compileNodes h defs root.tree) { s with constants := c' } e s')) := by
  simp only [program, programWith, Draft.report, stops_bind_iff, stops_liftFault_iff,
    stops_interning_iff, stops_get_iff, stops_modify_iff, stops_pure_iff, yields_liftFault_iff,
    yields_interning_iff, and_false, exists_false, or_false]
  refine or_congr_right ⟨?_, ?_⟩
  · rintro ⟨args, _, ⟨c, hargs, rfl⟩, hcode | ⟨code, _, ⟨hcode, rfl⟩,
      hbuild | ⟨i, _, ⟨c', hbuild, rfl⟩, htree⟩⟩⟩
    · exact ⟨args, c, hargs, .inl hcode⟩
    · exact ⟨args, c, hargs, .inr ⟨code, hcode, .inl hbuild⟩⟩
    · exact ⟨args, c, hargs, .inr ⟨code, hcode, .inr ⟨i, c', hbuild, htree⟩⟩⟩
  · rintro ⟨args, c, hargs, hcode | ⟨code, hcode, hbuild | ⟨i, c', hbuild, htree⟩⟩⟩
    · exact ⟨args, _, ⟨c, hargs, rfl⟩, .inl hcode⟩
    · exact ⟨args, _, ⟨c, hargs, rfl⟩, .inr ⟨code, _, ⟨hcode, rfl⟩, .inl hbuild⟩⟩
    · exact ⟨args, _, ⟨c, hargs, rfl⟩, .inr ⟨code, _, ⟨hcode, rfl⟩,
        .inr ⟨i, _, ⟨c', hbuild, rfl⟩, htree⟩⟩⟩

/-- A program fails before its tree is entered, or because the tree fails. -/
lemma fails_of_program {root : Definition} {values : Value} {reports : Journal}
    (hp : Draft.empty.perform (program h defs root values) = (.error e, s', reports)) :
    ∃ c, s' = { Draft.empty with constants := c } ∨
      ∃ opened, Fails h defs root.tree { Draft.empty with constants := c } e s' opened := by
  have hs : Stops (program h defs root values) .empty e s' := Draft.run_of_perform hp
  obtain ⟨c, -, rfl⟩ | ⟨args, c, -, ⟨-, rfl⟩ | ⟨code, -, ⟨c', -, rfl⟩ | ⟨i, c', -, htree⟩⟩⟩ :=
    stops_program_iff.1 hs
  · exact ⟨c, .inl rfl⟩
  · exact ⟨c, .inl rfl⟩
  · exact ⟨c', .inl rfl⟩
  · exact ⟨c', .inr (stops_compileNodes_iff.1 htree)⟩

/-! ### Sequences of actions -/

/-- What is done with a catalogue and a draft. -/
inductive Action where
  /-- Compiles nodes into the draft. -/
  | compile (ns : List Node)
  /-- Starts over from an empty draft with the program of a root. -/
  | restart (root : Definition) (values : Value)
  | register (d : Definition)
  | unregister (name : Value)

/-- A catalogue that may change, and the draft that nodes are compiled into. -/
structure Workbench where
  catalogue : Catalogue
  draft : Draft

namespace Workbench

/-- Compiles nodes; gives the calls or the failure, and the draft after it. -/
def compile (h : Header) (w : Workbench) (ns : List Node) :
    Except Failure (List Call) × Draft × Journal :=
  w.draft.perform (compileNodes h w.catalogue ns)

/-- Compiles a root from an empty draft on. -/
def restart (h : Header) (w : Workbench) (root : Definition) (values : Value) :
    Except Failure Program × Draft × Journal :=
  Draft.empty.perform (program h w.catalogue root values)

/-- Does an action. A compilation that fails keeps what it did to the draft. -/
def act (h : Header) (w : Workbench) : Action → Workbench
  | .compile ns => { w with draft := (w.compile h ns).2.1 }
  | .restart root values => { w with draft := (w.restart h root values).2.1 }
  | .register d =>
    match w.catalogue.register d with
    | .ok (c, _) => { w with catalogue := c }
    | .error _ => w
  | .unregister name =>
    match w.catalogue.unregister name with
    | .ok (_, c) => { w with catalogue := c }
    | .error _ => w

/-- Does some actions, one after the other. -/
def after (h : Header) (w : Workbench) (actions : List Action) : Workbench :=
  actions.foldl (act h) w

/-- An action fails while the function with an identifier is open, for the definition with a
name. -/
inductive FailsInside (h : Header) (w : Workbench) : Action → Value → String → Prop
  | compile {ns : List Node} {e : Failure} {s' : Draft} {reports : Journal}
      {opened : List (Value × String)} {name : Value} {id : String}
      (failed : w.compile h ns = (.error e, s', reports))
      (fails : Fails h w.catalogue ns { w.draft with constants.journal := [] } e s' opened)
      (mem : (name, id) ∈ opened) : FailsInside h w (.compile ns) name id
  | restart {root : Definition} {values : Value} {c : Constants} {e : Failure} {s' : Draft}
      {reports : Journal} {opened : List (Value × String)} {name : Value} {id : String}
      (failed : w.restart h root values = (.error e, s', reports))
      (fails : Fails h w.catalogue root.tree { Draft.empty with constants := c } e s' opened)
      (mem : (name, id) ∈ opened) : FailsInside h w (.restart root values) name id

/-- One of some actions fails while a function is open, and none after it starts over. -/
def Interrupted (h : Header) (w : Workbench) (actions : List Action) (name : Value) (id : String) :
    Prop :=
  ∃ before a rest, actions = before ++ a :: rest ∧ (w.after h before).FailsInside h a name id ∧
    ∀ root values, .restart root values ∉ rest

variable {w : Workbench} {a : Action} {actions : List Action} {reports : Journal} {name : Value}
  {id : String} {root : Definition} {values : Value} {p : Program}

lemma interrupted_concat_iff : w.Interrupted h (actions ++ [a]) name id ↔
    (w.Interrupted h actions name id ∧ ∀ root values, a ≠ .restart root values) ∨
      (w.after h actions).FailsInside h a name id := by
  constructor
  · rintro ⟨before, b, rest, heq, hfails, hrest⟩
    -- the action that fails is the last one, or stands among those before it
    rcases List.eq_nil_or_concat rest with rfl | ⟨rest, last, rfl⟩
    · obtain ⟨rfl, hlast⟩ := List.append_inj' heq rfl
      obtain rfl := List.singleton_inj.1 hlast
      exact .inr hfails
    · rw [List.concat_eq_append] at heq hrest
      rw [← List.cons_append, ← List.append_assoc] at heq
      obtain ⟨rfl, hlast⟩ := List.append_inj' heq rfl
      obtain rfl := List.singleton_inj.1 hlast
      refine .inl ⟨⟨before, b, rest, rfl, hfails, fun root values hmem => ?_⟩, ?_⟩
      · exact hrest root values (List.mem_append_left _ hmem)
      · rintro root values rfl
        exact hrest root values (List.mem_append_right _ List.mem_cons_self)
  · rintro (⟨⟨before, b, rest, rfl, hfails, hrest⟩, ha⟩ | hfails)
    · refine ⟨before, b, rest ++ [a], by simp, hfails, fun root values hmem => ?_⟩
      obtain hmem | hmem := List.mem_append.1 hmem
      · exact hrest root values hmem
      · exact ha root values (List.mem_singleton.1 hmem).symm
    · exact ⟨actions, a, [], rfl, hfails, by simp⟩

/-- Nodes that are compiled follow the rules. -/
lemma compiles_of_compile (hc : w.compile h ns = (.ok cs, s', reports)) :
    ∃ vs, Compiles h w.catalogue ns { w.draft with constants.journal := [] } cs s' vs :=
  compiles_of_compileNodes (Draft.run_of_perform hc)

/-- Nodes that fail to compile do so by the rules. -/
lemma fails_of_compile (hc : w.compile h ns = (.error e, s', reports)) :
    ∃ opened, Fails h w.catalogue ns { w.draft with constants.journal := [] } e s' opened :=
  stops_compileNodes_iff.1 (Draft.run_of_perform hc)

lemma accounts_of_ok (hs : w.draft.Accounts missing)
    (hc : w.compile h ns = (.ok cs, s', reports)) : s'.Accounts missing := by
  obtain ⟨vs, hvs⟩ := compiles_of_compile hc
  exact hvs.accounts (hs.constants _)

/-- Nodes that are compiled change nothing about what is missing. -/
lemma missing_iff_of_ok (hs : w.draft.Accounts missing)
    (hc : w.compile h ns = (.ok cs, s', reports)) :
    s'.Missing name id ↔ w.draft.Missing name id := by
  rw [(accounts_of_ok hs hc).missing_iff, hs.missing_iff]

lemma missing_of_error (hs : w.draft.Accounts missing)
    (hc : w.compile h ns = (.error e, s', reports)) :
    (∃ missing', s'.Accounts missing') ∧ ∀ name id,
      s'.Missing name id ↔ w.draft.Missing name id ∨ w.FailsInside h (.compile ns) name id := by
  obtain ⟨opened, hfails⟩ := fails_of_compile hc
  have hs' := hfails.accounts (hs.constants _)
  refine ⟨⟨_, hs'⟩, fun name id => ⟨?_, ?_⟩⟩
  · rw [hs'.missing_iff, hs.missing_iff, List.mem_append]
    exact Or.imp_right fun hmem => .compile hc hfails hmem
  · rintro (hmissing | hinside)
    · exact hs'.missing_iff.2 (List.mem_append_left _ (hs.missing_iff.1 hmissing))
    · -- the rules may be applied in another way, but to the same effect
      cases hinside with
      | compile failed fails mem =>
        cases hc.symm.trans failed
        exact (fails.accounts (hs.constants _)).missing_iff.2 (List.mem_append_right _ mem)

lemma missing_of_restart_error (hp : w.restart h root values = (.error e, s', reports)) :
    (∃ missing', s'.Accounts missing') ∧ ∀ name id,
      s'.Missing name id ↔ w.FailsInside h (.restart root values) name id := by
  have hback : ∀ name id, w.FailsInside h (.restart root values) name id → s'.Missing name id := by
    intro name id hinside
    cases hinside with
    | restart failed fails mem =>
      cases hp.symm.trans failed
      exact (fails.accounts (Draft.Accounts.empty.constants _)).missing_iff.2 mem
  obtain ⟨c, rfl | ⟨opened, hfails⟩⟩ := fails_of_program hp
  · have hs' := Draft.Accounts.empty.constants c
    refine ⟨⟨[], hs'⟩, fun name id => ⟨fun hmissing => ?_, hback name id⟩⟩
    cases hs'.missing_iff.1 hmissing
  · have hs' := hfails.accounts (Draft.Accounts.empty.constants c)
    refine ⟨⟨_, hs'⟩, fun name id => ⟨fun hmissing => ?_, hback name id⟩⟩
    exact .restart hp hfails (hs'.missing_iff.1 hmissing)

/-- Changes of the catalogue leave the draft alone. -/
lemma draft_act_of_ne (hcompile : ∀ ns, a ≠ .compile ns)
    (hrestart : ∀ root values, a ≠ .restart root values) : (w.act h a).draft = w.draft := by
  cases a with
  | compile ns => exact (hcompile ns rfl).elim
  | restart root values => exact (hrestart root values rfl).elim
  | register | unregister =>
    rw [act]
    split <;> rfl

/-- A property that compilations keep holds of the draft after an action. -/
lemma keeps_act {P : Draft → Prop} (hP : Kept P) (hw : P w.draft) (a : Action) :
    P (w.act h a).draft := by
  cases a with
  | compile ns =>
    rw [act]
    rcases hc : w.compile h ns with ⟨e | cs, s', reports⟩
    · obtain ⟨opened, hfails⟩ := fails_of_compile hc
      exact hfails.keeps hP (hP.constants _ hw)
    · obtain ⟨vs, hvs⟩ := compiles_of_compile hc
      exact hP.compiles hvs (hP.constants _ hw)
  | restart root values =>
    rw [act]
    rcases hp : w.restart h root values with ⟨e | p, s', reports⟩
    · obtain ⟨c, rfl | ⟨opened, hfails⟩⟩ := fails_of_program hp
      · exact hP.constants c hP.empty
      · exact hfails.keeps hP (hP.constants c hP.empty)
    · obtain ⟨c, c', s₁, vs, hvs, rfl⟩ := compiles_of_program hp
      exact hP.constants c' (hP.compiles hvs (hP.constants c hP.empty))
  | register | unregister =>
    rw [draft_act_of_ne (by simp) (by simp)]
    exact hw

lemma keeps_after {P : Draft → Prop} (hP : Kept P) (hw : P w.draft) (actions : List Action) :
    P (w.after h actions).draft := by
  induction actions generalizing w with
  | nil => exact hw
  | cons a actions ih => exact ih (keeps_act hP hw a)

/-- A function is missing after an action if it was open when the action failed, or if it was
missing before and the action does not start over. -/
lemma missing_act_iff (hs : w.draft.Accounts missing) (a : Action) :
    (∃ missing', (w.act h a).draft.Accounts missing') ∧ ∀ name id,
      (w.act h a).draft.Missing name id ↔
        (w.draft.Missing name id ∧ ∀ root values, a ≠ .restart root values) ∨
          w.FailsInside h a name id := by
  cases a with
  | compile ns =>
    simp only [ne_eq, reduceCtorEq, not_false_eq_true, implies_true, and_true]
    rcases hc : w.compile h ns with ⟨e | cs, s', reports⟩
    · rw [act, hc]
      exact missing_of_error hs hc
    · rw [act, hc]
      refine ⟨⟨missing, accounts_of_ok hs hc⟩, fun name id => ?_⟩
      rw [missing_iff_of_ok hs hc, or_iff_left]
      intro hinside
      cases hinside with
      | compile failed => cases hc.symm.trans failed
  | restart root values =>
    have hnot : ¬ ∀ root' values', Action.restart root values ≠ .restart root' values' :=
      fun hne => hne root values rfl
    simp only [hnot, and_false, false_or]
    rcases hp : w.restart h root values with ⟨e | p, s', reports⟩
    · rw [act, hp]
      exact missing_of_restart_error hp
    · have hs' := accounts_of_program hp
      rw [act, hp]
      refine ⟨⟨[], hs'⟩, fun name id => ?_⟩
      rw [hs'.missing_iff, List.mem_nil_iff, false_iff]
      intro hinside
      cases hinside with
      | restart failed => cases hp.symm.trans failed
  | register | unregister =>
    rw [draft_act_of_ne (by simp) (by simp)]
    refine ⟨⟨missing, hs⟩, fun name id => ?_⟩
    simp only [ne_eq, reduceCtorEq, not_false_eq_true, implies_true, and_true]
    exact (or_iff_left fun hfails => by cases hfails).symm

/-- A function is missing after some actions if it was open when one of them failed. -/
lemma missing_after_iff (hw : w.draft = .empty) (actions : List Action) :
    (∃ missing, (w.after h actions).draft.Accounts missing) ∧ ∀ name id,
      (w.after h actions).draft.Missing name id ↔ w.Interrupted h actions name id := by
  induction actions using List.reverseRecOn with
  | nil =>
    have hs : w.draft.Accounts [] := hw ▸ .empty
    refine ⟨⟨[], hs⟩, fun name id => ?_⟩
    rw [after, List.foldl_nil, hs.missing_iff]
    simp [Interrupted]
  | append_singleton actions a ih =>
    obtain ⟨⟨missing, hs⟩, hmissing⟩ := ih
    obtain ⟨haccounts, hact⟩ := missing_act_iff (h := h) hs a
    rw [after, List.foldl_append]
    refine ⟨haccounts, fun name id => ?_⟩
    rw [interrupted_concat_iff, ← hmissing]
    exact hact name id

/-- A call that comes out of a compilation names a function in a block, unless that function is
missing. -/
lemma hasFunction_iff_not_missing (hs : w.draft.Accounts missing)
    (hc : w.compile h ns = (.ok cs, s', reports)) {c : Call} (hmem : c ∈ cs) :
    HasFunction s'.blocks c.function ↔ ∀ name, ¬ w.draft.Missing name c.function := by
  simp only [← missing_iff_of_ok hs hc]
  obtain ⟨vs, hvs⟩ := compiles_of_compile hc
  constructor
  · exact fun hfun name hmissing => hmissing.2 hfun
  · intro hnone
    obtain ⟨v, hv, hcall⟩ := List.mem_flatMap.1 (hvs.calls_subset.1 hmem)
    obtain ⟨f, hf, hid⟩ | hlinked := (hvs.fits v hv).function_of_call hcall
    · rw [← hid]
      exact hvs.hasFunction_of_visit hv hf
    · by_contra hfun
      exact hnone _ ⟨hlinked, hfun⟩

end Workbench

/-- After any actions from an empty draft on, the definitions that are linked to functions that are
missing are those whose functions were open when a compilation failed, since the last start. So a
call that a later compilation gives names a function that is there, unless it is that of such a
definition. -/
theorem missing_iff_interrupted (h : Header) (defs : Catalogue) (actions : List Action) :
    let start : Workbench := ⟨defs, .empty⟩
    let w := start.after h actions
    (∀ name id, w.draft.Missing name id ↔ start.Interrupted h actions name id) ∧
      ∀ ns cs s' reports, w.compile h ns = (.ok cs, s', reports) → ∀ c ∈ cs,
        HasFunction s'.blocks c.function ↔
          ∀ name, ¬ start.Interrupted h actions name c.function := by
  intro start w
  obtain ⟨⟨missing, hw⟩, hmissing⟩ := start.missing_after_iff (h := h) rfl actions
  refine ⟨hmissing, fun ns cs s' reports hc c hmem => ?_⟩
  rw [Workbench.hasFunction_iff_not_missing hw hc hmem]
  exact forall_congr' fun name => not_congr (hmissing name c.function)

/-- A definition whose tree uses one that is not there, and a definition without a tree. -/
def hollow : Workbench where
  catalogue := [("a", { name := "a", tree := [.mk "b" false [] []] }), ("c", { name := "c" })]
  draft := .empty

/-- The first definition is compiled, which fails, and the one that it uses is added then. -/
def hollowActions : List Action :=
  [.compile [.mk "a" false [] []], .register { name := "b" }]

/-- What the actions leave. -/
def hollowed : Workbench :=
  hollow.after .standard hollowActions

/-- Uses of both definitions. -/
def hollowNodes : List Node :=
  [.mk "a" false [] [], .mk "c" false [] []]

lemma hollowed_missing : hollowed.draft.Missing "a" "a" := by
  refine ⟨by decide +kernel, ?_⟩
  rw [← mem_functionIds_iff]
  decide +kernel

/-- Both definitions are called, and one of them has a function. -/
lemma hollowed_compile : ∃ cs s' reports,
    hollowed.compile .standard hollowNodes = (.ok cs, s', reports) ∧
      cs.map (·.function) = ["a", "c"] ∧ functionIds s'.blocks = ["c"] := by
  have hcalls : (hollowed.compile .standard hollowNodes).1.toOption.map (·.map (·.function)) =
      some ["a", "c"] := by decide +kernel
  have hids : functionIds (hollowed.compile .standard hollowNodes).2.1.blocks = ["c"] := by
    decide +kernel
  rcases hc : hollowed.compile .standard hollowNodes with ⟨e | cs, s', reports⟩
  · rw [hc] at hcalls
    cases hcalls
  · rw [hc] at hcalls hids
    exact ⟨cs, s', reports, rfl, Option.some.inj hcalls, hids⟩

theorem hollow_missing_iff_interrupted :
    hollow.Interrupted .standard hollowActions "a" "a" ∧ ∃ cs s' reports,
      hollowed.compile .standard hollowNodes = (.ok cs, s', reports) ∧
        cs.map (·.function) = ["a", "c"] ∧ ∀ c ∈ cs, HasFunction s'.blocks c.function ↔
          ∀ name, ¬ hollow.Interrupted .standard hollowActions name c.function := by
  obtain ⟨hmissing, hcalls⟩ := missing_iff_interrupted .standard hollow.catalogue hollowActions
  obtain ⟨cs, s', reports, hc, hnames, -⟩ := hollowed_compile
  exact ⟨(hmissing _ _).1 hollowed_missing, cs, s', reports, hc, hnames,
    hcalls _ cs s' reports hc⟩

/-- A definition whose function was open when a compilation failed stays linked. It is called by
what is compiled later, but its function is not there. -/
theorem interrupted_function_called : hollowed.draft.Missing "a" "a" ∧ ∃ cs s' reports,
    hollowed.compile .standard hollowNodes = (.ok cs, s', reports) ∧
      ∃ c ∈ cs, ¬ HasFunction s'.blocks c.function := by
  obtain ⟨cs, s', reports, hc, hnames, hids⟩ := hollowed_compile
  have ha : "a" ∈ cs.map (·.function) := by simp [hnames]
  obtain ⟨c, hmem, hname⟩ := List.mem_map.1 ha
  refine ⟨hollowed_missing, cs, s', reports, hc, c, hmem, ?_⟩
  rw [← mem_functionIds_iff, hids, hname]
  decide

end Compile

end NodeScript
