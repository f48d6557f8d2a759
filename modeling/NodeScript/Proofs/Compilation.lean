import NodeScript.Proofs.Constants
import NodeScript.Proofs.Naming
import NodeScript.Proofs.Table

/-!
# Compilations

A compilation visits nodes. `Compiles` gives the rules by which it does so, together with a record
of the visits in the order in which they end, and without a bound on how deep trees of definitions
are entered. A compilation that succeeds follows these rules: a definition is linked before its tree
is entered, so the definitions that are not linked yet bound the depth.
-/

namespace NodeScript

/-! ### Steps on drafts -/

namespace Draft

variable {s s' : Draft}

/-- A draft keeps the links and the texts of an earlier one. -/
structure Extends (s s' : Draft) : Prop where
  linked : ∀ {name id}, s.linked.get? name = some id → s'.linked.get? name = some id
  texts : s.constants.texts <+: s'.constants.texts

lemma Extends.refl (s : Draft) : s.Extends s := ⟨id, List.prefix_rfl⟩

lemma Extends.trans {s₁ s₂ s₃ : Draft} (h : s₁.Extends s₂) (h' : s₂.Extends s₃) :
    s₁.Extends s₃ :=
  ⟨fun hid => h'.linked (h.linked hid), h.texts.trans h'.texts⟩

/-- The definitions with these names are linked. -/
def Links (s : Draft) (names : List Value) : Prop :=
  ∀ name ∈ names, ∃ id, s.linked.get? name = some id

lemma Extends.links {s s' : Draft} {names : List Value} (h : s.Extends s')
    (hs : s.Links names) : s'.Links names := by
  intro name hname
  obtain ⟨id, hid⟩ := hs name hname
  exact ⟨id, h.linked hid⟩

lemma yields_addBlock {b : Block} {u : Unit} (h : Yields (addBlock b) s u s') :
    s' = { s with blocks := s.blocks ++ [b] } :=
  yields_modify_iff.1 h

/-- Adding a function adds its block, and a report to the journal. -/
lemma yields_addFunction {f : FunctionBlock} {u : Unit} (h : Yields (addFunction f) s u s') :
    s'.blocks = s.blocks ++ [.function f] ∧ s'.linked = s.linked ∧ s'.ids = s.ids ∧
      s'.constants.texts = s.constants.texts := by
  rw [addFunction, yields_bind_iff] at h
  obtain ⟨_, s₁, hblock, hreport⟩ := h
  obtain rfl := yields_addBlock hblock
  obtain rfl := yields_modify_iff.1 hreport
  exact ⟨rfl, rfl, rfl, rfl⟩

/-- Linking a definition, whose name is a text, reserves an identifier that is free. -/
lemma yields_link {d : Definition} {id : String} (h : Yields (link d) s id s') :
    ∃ name, d.name = .text name ∧ id ∉ s.ids ∧
      s' = { s with ids := s.ids ++ [id], linked := s.linked.put d.name id } := by
  simp only [link, yields_bind_iff, yields_liftFault_iff, yields_get_iff, yields_set_iff,
    yields_pure_iff] at h
  obtain ⟨base, _, ⟨hbase, rfl⟩, _, _, ⟨rfl, rfl⟩, _, _, rfl, rfl, rfl⟩ := h
  cases hname : d.name with
  | text name => exact ⟨name, rfl, freshId_not_mem _ _, rfl⟩
  | _ => rw [hname] at hbase; cases hbase

/-- A number for code of the user reserves an identifier that is free. -/
lemma yields_nextSourceId {d : Definition} {id : String} (h : Yields (nextSourceId d) s id s') :
    id ∉ s.ids ∧ s'.ids = s.ids ++ [id] ∧ s'.linked = s.linked ∧ s'.blocks = s.blocks ∧
      s'.constants = s.constants := by
  simp only [nextSourceId, yields_bind_iff, yields_liftFault_iff, yields_get_iff, yields_set_iff,
    yields_pure_iff] at h
  obtain ⟨base, _, ⟨-, rfl⟩, _, _, ⟨rfl, rfl⟩, _, _, rfl, rfl, rfl⟩ := h
  exact ⟨firstFree_not_mem _ (numbered_injective base) _, rfl, rfl, rfl, rfl⟩

lemma extends_of_addBlock {b : Block} {u : Unit} (h : Yields (addBlock b) s u s') :
    s.Extends s' := by
  obtain rfl := yields_addBlock h
  exact ⟨id, List.prefix_rfl⟩

lemma extends_of_addFunction {f : FunctionBlock} {u : Unit} (h : Yields (addFunction f) s u s') :
    s.Extends s' := by
  obtain ⟨-, hlinked, -, htexts⟩ := yields_addFunction h
  exact ⟨fun hid => hlinked ▸ hid, htexts ▸ List.prefix_rfl⟩

lemma extends_of_nextSourceId {d : Definition} {id : String} (h : Yields (nextSourceId d) s id s') :
    s.Extends s' := by
  obtain ⟨-, -, hlinked, -, hconstants⟩ := yields_nextSourceId h
  exact ⟨fun hid => hlinked ▸ hid, hconstants ▸ List.prefix_rfl⟩

lemma extends_of_link {d : Definition} {id : String} (h : Yields (link d) s id s')
    (hnew : s.linked.get? d.name = none) : s.Extends s' := by
  obtain ⟨name, hname, -, rfl⟩ := yields_link h
  refine ⟨fun {k} _ hk => ?_, List.prefix_rfl⟩
  rw [hname] at hnew ⊢
  rw [← hk]
  refine Table.get?_put_of_ne ?_
  rintro rfl
  rw [hnew] at hk
  cases hk

lemma linked_of_link {d : Definition} {id : String} (h : Yields (link d) s id s') :
    s'.linked.get? d.name = some id := by
  obtain ⟨name, hname, -, rfl⟩ := yields_link h
  rw [hname]
  exact Table.get?_put_self _ _ _

end Draft

/-! ### Visits -/

/-- A use of a definition that was compiled, and what came of it. -/
structure Visit where
  node : Node
  definition : Definition
  args : List Argument
  /-- The calls that the node became. -/
  calls : List Call
  /-- The block that was added for the node itself. -/
  block : Option Block

namespace Compile

/-- Interns the variables of a definition, if it has a tree of its own. -/
def predefinedOf (h : Header) (d : Definition) : Drafting (Option Nat) :=
  if d.tree.isEmpty then pure none else Draft.interning (Predefined.build d h.lang)

/-- The function of a definition: `calls` are those of the node that links it, `inner` those of the
tree of the definition. -/
def functionOf (d : Definition) (id : String) (args : List Argument) (code : String)
    (calls : List Call) (predefined : Option Nat) (inner : List Call) : FunctionBlock where
  id := id
  definition := d.name
  params := args.map fun a => (a.type, a.name)
  logLevel := d.logLevel
  code := fillBody code calls
  scope := if d.tree.isEmpty then none else some ⟨args.map (·.name), predefined, inner⟩

/-- The function of one use of code of the user. -/
def sourceFunction (d : Definition) (id : String) (code : String) (calls : List Call) :
    FunctionBlock where
  id := id
  definition := d.name
  params := []
  logLevel := d.logLevel
  code := fillBody code calls
  scope := none

/-- A node is switched on, its definition is found and its arguments are made. -/
structure Uses (h : Header) (defs : Table Value Definition) (n : Node) (d : Definition)
    (args : List Argument) (s s' : Draft) : Prop where
  enabled : n.disabled = false
  resolved : resolve h defs n.name = .ok d
  coerced : Yields (Draft.interning (Argument.listOfValues h d (.table n.values) true)) s args s'

/-- The rules by which nodes become calls. The last argument lists the visits in the order in which
they end: those of the nodes below a node, then those of the tree of its definition, then the visit
of the node itself. -/
inductive Compiles (h : Header) (defs : Table Value Definition) :
    List Node → Draft → List Call → Draft → List Visit → Prop
  | nil (s : Draft) : Compiles h defs [] s [] s []
  | disabled {n : Node} {ns : List Node} {s s' : Draft} {cs : List Call} {vs : List Visit}
      (off : n.disabled = true) (rest : Compiles h defs ns s cs s' vs) :
      Compiles h defs (n :: ns) s cs s' vs
  /-- A definition that is linked is called. -/
  | again {n : Node} {ns : List Node} {d : Definition} {args : List Argument} {id : String}
      {s s₁ s' : Draft} {cs : List Call} {vs : List Visit}
      (uses : Uses h defs n d args s s₁) (ordinary : d.isSourceCode = false)
      (linked : s₁.linked.get? d.name = some id)
      (rest : Compiles h defs ns s₁ cs s' vs) :
      Compiles h defs (n :: ns) s (⟨id, args.map (·.operand)⟩ :: cs) s'
        (⟨n, d, args, [⟨id, args.map (·.operand)⟩], none⟩ :: vs)
  /-- A definition that is new is linked; then its function is built and called. -/
  | first {n : Node} {ns : List Node} {d : Definition} {args : List Argument} {id code : String}
      {predefined : Option Nat} {s s₁ s₂ s₃ s₄ s₅ s₆ s' : Draft} {below inner cs : List Call}
      {vs₁ vs₂ vs₃ : List Visit}
      (uses : Uses h defs n d args s s₁) (ordinary : d.isSourceCode = false)
      (new : s₁.linked.get? d.name = none) (link : Yields (Draft.link d) s₁ id s₂)
      (children : Compiles h defs n.children s₂ below s₃ vs₁)
      (codeText : d.codeText = .ok code)
      (interned : Yields (predefinedOf h d) s₃ predefined s₄)
      (tree : Compiles h defs d.tree s₄ inner s₅ vs₂)
      (add : Yields (Draft.addFunction (functionOf d id args code below predefined inner)) s₅ () s₆)
      (rest : Compiles h defs ns s₆ cs s' vs₃) :
      Compiles h defs (n :: ns) s (⟨id, args.map (·.operand)⟩ :: cs) s'
        (vs₁ ++ vs₂ ++ ⟨n, d, args, [⟨id, args.map (·.operand)⟩],
          some (.function (functionOf d id args code below predefined inner))⟩ :: vs₃)
  /-- Code of the user that is marked so goes to the top level. -/
  | topLevel {n : Node} {ns : List Node} {d : Definition} {flag code : Argument}
      {args : List Argument} {s s₁ s₂ s₃ s' : Draft} {below cs : List Call} {vs₁ vs₂ : List Visit}
      (uses : Uses h defs n d (flag :: code :: args) s s₁) (source : d.isSourceCode = true)
      (children : Compiles h defs n.children s₁ below s₂ vs₁)
      (marked : flag.operand.render = "true")
      (add : Yields (Draft.addBlock (.source (fillBody code.operand.render below))) s₂ () s₃)
      (rest : Compiles h defs ns s₃ cs s' vs₂) :
      Compiles h defs (n :: ns) s cs s'
        (vs₁ ++ ⟨n, d, flag :: code :: args, [],
          some (.source (fillBody code.operand.render below))⟩ :: vs₂)
  /-- Other code of the user gets a function at each use. -/
  | inline {n : Node} {ns : List Node} {d : Definition} {flag code : Argument}
      {args : List Argument} {id : String} {s s₁ s₂ s₃ s₄ s' : Draft} {below cs : List Call}
      {vs₁ vs₂ : List Visit}
      (uses : Uses h defs n d (flag :: code :: args) s s₁) (source : d.isSourceCode = true)
      (children : Compiles h defs n.children s₁ below s₂ vs₁)
      (unmarked : flag.operand.render ≠ "true")
      (number : Yields (Draft.nextSourceId d) s₂ id s₃)
      (add : Yields (Draft.addFunction (sourceFunction d id code.operand.render below)) s₃ () s₄)
      (rest : Compiles h defs ns s₄ cs s' vs₂) :
      Compiles h defs (n :: ns) s (⟨id, []⟩ :: cs) s'
        (vs₁ ++ ⟨n, d, flag :: code :: args, [⟨id, []⟩],
          some (.function (sourceFunction d id code.operand.render below))⟩ :: vs₂)

namespace Compiles

variable {h : Header} {defs : Table Value Definition} {ns ms : List Node} {s s₁ s' : Draft}
  {cs cs' : List Call} {vs vs' : List Visit}

lemma append (hns : Compiles h defs ns s cs s₁ vs) (hms : Compiles h defs ms s₁ cs' s' vs') :
    Compiles h defs (ns ++ ms) s (cs ++ cs') s' (vs ++ vs') := by
  induction hns with
  | nil => exact hms
  | disabled off _ ih => exact .disabled off (ih hms)
  | again uses ordinary linked _ ih => exact .again uses ordinary linked (ih hms)
  | first uses ordinary new link children codeText interned tree add _ _ _ ih =>
    rw [List.append_assoc]
    exact .first uses ordinary new link children codeText interned tree add (ih hms)
  | topLevel uses source children marked add _ _ ih =>
    rw [List.append_assoc]
    exact .topLevel uses source children marked add (ih hms)
  | inline uses source children unmarked number add _ _ ih =>
    rw [List.append_assoc]
    exact .inline uses source children unmarked number add (ih hms)

end Compiles

/-! ### What a step changes -/

lemma Uses.only_constants {h : Header} {defs : Table Value Definition} {n : Node} {d : Definition}
    {args : List Argument} {s s' : Draft} (hu : Uses h defs n d args s s') :
    ∃ c, s' = { s with constants := c } ∧ args.length = d.params.length ∧
      s.constants.texts <+: c.texts ∧
      (d.isSourceCode = false → ∀ p ∈ d.params, Argument.isText p.kind = true →
        ∃ t, Argument.coercedText h d (.table n.values) p = .ok t ∧ t ∈ c.texts) := by
  obtain ⟨c, hc, rfl⟩ := yields_interning_iff.1 hu.coerced
  exact ⟨c, rfl, Argument.yields_listOfValues hc⟩

lemma Uses.extension {h : Header} {defs : Table Value Definition} {n : Node} {d : Definition}
    {args : List Argument} {s s' : Draft} (hu : Uses h defs n d args s s') : s.Extends s' := by
  obtain ⟨c, rfl, -, htexts, -⟩ := hu.only_constants
  exact ⟨id, htexts⟩

lemma yields_predefinedOf {h : Header} {d : Definition} {i : Option Nat} {s s' : Draft}
    (hi : Yields (predefinedOf h d) s i s') :
    ∃ c, s' = { s with constants := c } ∧ s.constants.texts <+: c.texts := by
  rw [predefinedOf] at hi
  split_ifs at hi
  · obtain ⟨-, rfl⟩ := yields_pure_iff.1 hi
    exact ⟨s'.constants, rfl, List.prefix_rfl⟩
  · obtain ⟨c, hc, rfl⟩ := yields_interning_iff.1 hi
    exact ⟨c, rfl, (Predefined.yields_build hc).1⟩

lemma extends_of_predefinedOf {h : Header} {d : Definition} {i : Option Nat} {s s' : Draft}
    (hi : Yields (predefinedOf h d) s i s') : s.Extends s' := by
  obtain ⟨c, rfl, htexts⟩ := yields_predefinedOf hi
  exact ⟨id, htexts⟩

namespace Compiles

variable {h : Header} {defs : Table Value Definition} {ns : List Node} {s s' : Draft}
  {cs : List Call} {vs : List Visit}

/-- Compilation never takes back a link or a text. -/
lemma extension (hc : Compiles h defs ns s cs s' vs) : s.Extends s' := by
  induction hc with
  | nil s => exact .refl s
  | disabled _ _ ih => exact ih
  | again uses _ _ _ ih => exact uses.extension.trans ih
  | first uses _ new link _ _ interned _ add _ ihc iht ihr =>
    have hchildren := (uses.extension.trans (Draft.extends_of_link link new)).trans ihc
    have htree := (extends_of_predefinedOf interned).trans iht
    exact hchildren.trans (htree.trans ((Draft.extends_of_addFunction add).trans ihr))
  | topLevel uses _ _ _ add _ ihc ihr =>
    exact (uses.extension.trans ihc).trans ((Draft.extends_of_addBlock add).trans ihr)
  | inline uses _ _ _ number add _ ihc ihr =>
    have hadd := (Draft.extends_of_nextSourceId number).trans (Draft.extends_of_addFunction add)
    exact (uses.extension.trans ihc).trans (hadd.trans ihr)

end Compiles

/-! ### The bound on the depth of trees -/

/-- The number of definitions that have no function yet. -/
def unlinked (defs : Table Value Definition) (s : Draft) : Nat :=
  defs.countP fun e => (s.linked.get? e.2.name).isNone

lemma unlinked_le {defs : Table Value Definition} {s s' : Draft} (hs : s.Extends s') :
    unlinked defs s' ≤ unlinked defs s := by
  refine List.countP_mono_left fun e _ he => ?_
  cases hk : s.linked.get? e.2.name with
  | none => rfl
  | some id => simp [hs.linked hk] at he

/-- Linking a definition of the table leaves fewer of them without a function. -/
lemma unlinked_lt {defs : Table Value Definition} {s s' : Draft} {d : Definition} {k : Value}
    {id : String} (hs : s.Extends s') (hd : (k, d) ∈ defs) (hnew : s.linked.get? d.name = none)
    (hlinked : s'.linked.get? d.name = some id) : unlinked defs s' < unlinked defs s := by
  obtain ⟨before, after, rfl⟩ := List.append_of_mem hd
  have hbefore : unlinked before s' ≤ unlinked before s := unlinked_le hs
  have hafter : unlinked after s' ≤ unlinked after s := unlinked_le hs
  simp only [unlinked] at hbefore hafter
  simp only [unlinked, List.countP_append, List.countP_cons, hnew, hlinked, Option.isNone_none,
    Option.isNone_some, if_true, Bool.false_eq_true, if_false]
  omega

lemma get?_of_resolve {h : Header} {defs : Table Value Definition} {name : Value} {d : Definition}
    (hd : resolve h defs name = .ok d) : defs.get? name = some d := by
  rw [resolve] at hd
  cases hkey : name.checkKey with
  | error f => rw [hkey] at hd; cases hd
  | ok u =>
    rw [hkey] at hd
    cases hget : defs.get? name with
    | some d' => rw [hget] at hd; cases hd; rfl
    | none =>
      rw [hget] at hd
      cases hm : h.message Header.openKey [("name", name)] with
      | error f => rw [hm] at hd; cases hd
      | ok m => rw [hm] at hd; cases hd

/-! ### Compilation follows the rules -/

lemma yields_emitFunction {h : Header} {tree : List Node → Drafting (List Call)} {d : Definition}
    {id : String} {args : List Argument} {calls : List Call} {s s' : Draft} {u : Unit}
    (he : Yields (emitFunction h tree d id args calls) s u s') :
    ∃ code predefined inner s₁ s₂, d.codeText = .ok code ∧
      Yields (predefinedOf h d) s predefined s₁ ∧
      (d.tree = [] ∧ inner = [] ∧ s₂ = s₁ ∨ d.tree ≠ [] ∧ Yields (tree d.tree) s₁ inner s₂) ∧
      Yields (Draft.addFunction (functionOf d id args code calls predefined inner)) s₂ () s' := by
  rw [emitFunction, yields_bind_iff] at he
  simp only [yields_liftFault_iff] at he
  obtain ⟨code, _, ⟨hcode, rfl⟩, he⟩ := he
  rw [predefinedOf]
  by_cases hempty : d.tree.isEmpty = true
  · simp only [if_pos hempty, yields_bind_iff, yields_pure_iff] at he
    obtain ⟨_, s₁, ⟨rfl, rfl⟩, hadd⟩ := he
    refine ⟨code, none, [], s₁, s₁, hcode, ?_, .inl ⟨by simpa using hempty, rfl, rfl⟩, ?_⟩
    · rw [if_pos hempty]
      exact yields_pure_iff.2 ⟨rfl, rfl⟩
    · rw [functionOf, if_pos hempty]
      exact hadd
  · simp only [if_neg hempty, yields_bind_iff, yields_pure_iff] at he
    obtain ⟨predefined, s₁, hpre, inner, s₂, hinner, _, _, ⟨rfl, rfl⟩, hadd⟩ := he
    refine ⟨code, predefined, inner, s₁, _, hcode, ?_, .inr ⟨by simpa using hempty, hinner⟩, ?_⟩
    · rw [if_neg hempty]
      exact hpre
    · rw [functionOf, if_neg hempty]
      exact hadd

section Bound

variable {h : Header} {defs : Table Value Definition} {depth : Nat}
  {tree : List Node → Drafting (List Call)}

/-- Trees that are entered with fewer definitions unlinked than `depth` are compiled by the
rules. -/
def TreesFollow (h : Header) (defs : Table Value Definition) (depth : Nat)
    (tree : List Node → Drafting (List Call)) : Prop :=
  ∀ ns s cs s', unlinked defs s < depth → Yields (tree ns) s cs s' →
    ∃ vs, Compiles h defs ns s cs s' vs

lemma source_compiles {n : Node} {d : Definition} {args : List Argument} {s s₁ s' : Draft}
    {cs : List Call} (uses : Uses h defs n d args s s₁) (hsource : d.isSourceCode = true)
    (hchildren : ∀ s₂ below, Yields (nodes h defs tree n.children) s₁ below s₂ →
      ∃ vs, Compiles h defs n.children s₁ below s₂ vs)
    (hn : Yields (useWith h (nodes h defs tree n.children) tree d args) s₁ cs s') :
    ∃ vs, Compiles h defs [n] s cs s' vs := by
  unfold useWith at hn
  rw [if_pos hsource] at hn
  split at hn
  case h_2 => exact (yields_throw_iff.1 hn).elim
  case h_1 flag code more =>
    obtain ⟨below, s₂, hbelow, hn⟩ := yields_bind_iff.1 hn
    obtain ⟨vs, children⟩ := hchildren s₂ below hbelow
    by_cases hflag : flag.operand.render = "true"
    · simp only [hflag, beq_self_eq_true, if_true, yields_bind_iff, yields_pure_iff] at hn
      obtain ⟨_, s₃, hadd, rfl, rfl⟩ := hn
      exact ⟨_, .topLevel uses hsource children hflag hadd (.nil _)⟩
    · simp only [beq_iff_eq, if_neg hflag, emitSource, yields_bind_iff, yields_pure_iff] at hn
      obtain ⟨id, s₃, hid, _, s₄, hadd, rfl, rfl⟩ := hn
      exact ⟨_, .inline uses hsource children hflag hid hadd (.nil _)⟩

lemma first_compiles (ht : TreesFollow h defs depth tree) {n : Node} {d : Definition}
    {args : List Argument} {id : String} {s s₁ s₂ s₃ s' : Draft} {below : List Call}
    {vs : List Visit} (uses : Uses h defs n d args s s₁) (ordinary : d.isSourceCode = false)
    (hs : unlinked defs s₁ ≤ depth) (new : s₁.linked.get? d.name = none)
    (hid : Yields (Draft.link d) s₁ id s₂)
    (children : Compiles h defs n.children s₂ below s₃ vs)
    (hn : Yields (emitFunction h tree d id args below) s₃ () s') :
    ∃ vs, Compiles h defs [n] s [⟨id, args.map (·.operand)⟩] s' vs := by
  obtain ⟨code, predefined, inner, s₄, s₅, hcode, hpre, hinner, hadd⟩ := yields_emitFunction hn
  obtain ⟨vs', tree⟩ : ∃ vs', Compiles h defs d.tree s₄ inner s₅ vs' := by
    obtain ⟨hempty, rfl, rfl⟩ | ⟨-, hinner⟩ := hinner
    · exact ⟨[], hempty ▸ .nil _⟩
    · -- The definition is linked by now, so fewer are left than before its node.
      obtain ⟨c, rfl, -⟩ := yields_predefinedOf hpre
      obtain ⟨k, hmem, -⟩ := Table.exists_mem_of_get? (get?_of_resolve uses.resolved)
      have hle : unlinked defs s₃ ≤ unlinked defs s₂ := unlinked_le children.extension
      have hlt := unlinked_lt (Draft.extends_of_link hid new) hmem new (Draft.linked_of_link hid)
      exact ht _ _ _ _ (hle.trans_lt (hlt.trans_le hs)) hinner
  exact ⟨_, .first uses ordinary new hid children hcode hpre tree hadd (.nil _)⟩

mutual

lemma node_compiles (ht : TreesFollow h defs depth tree) (n : Node) {s s' : Draft} {cs : List Call}
    (hs : unlinked defs s ≤ depth) (hn : Yields (node h defs tree n) s cs s') :
    ∃ vs, Compiles h defs [n] s cs s' vs := by
  match n with
  | .mk name disabled values children =>
    rw [node, nodeWith] at hn
    by_cases hoff : disabled = true
    · rw [if_pos hoff] at hn
      obtain ⟨rfl, rfl⟩ := yields_pure_iff.1 hn
      exact ⟨[], .disabled hoff (.nil _)⟩
    · rw [if_neg hoff] at hn
      simp only [yields_bind_iff, yields_liftFailure_iff] at hn
      obtain ⟨d, _, ⟨hd, rfl⟩, args, s₁, hargs, hn⟩ := hn
      have uses : Uses h defs (.mk name disabled values children) d args _ s₁ :=
        ⟨Bool.eq_false_iff.2 hoff, hd, hargs⟩
      have hs₁ : unlinked defs s₁ ≤ depth := by
        obtain ⟨c, rfl, -⟩ := uses.only_constants
        exact hs
      by_cases hsource : d.isSourceCode = true
      · exact source_compiles uses hsource (fun _ _ => nodes_compiles ht children hs₁) hn
      · unfold useWith at hn
        rw [if_neg hsource] at hn
        simp only [yields_bind_iff, yields_get_iff] at hn
        obtain ⟨_, _, ⟨rfl, rfl⟩, hn⟩ := hn
        split at hn
        case h_1 id hid =>
          obtain ⟨rfl, rfl⟩ := yields_pure_iff.1 hn
          exact ⟨_, .again uses (by simpa using hsource) hid (.nil _)⟩
        case h_2 hnew =>
          simp only [yields_bind_iff, yields_pure_iff] at hn
          obtain ⟨id, s₂, hid, below, s₃, hbelow, _, _, hn, rfl, rfl⟩ := hn
          have hs₂ := (unlinked_le (Draft.extends_of_link hid hnew)).trans hs₁
          obtain ⟨vs, hvs⟩ := nodes_compiles ht children hs₂ hbelow
          exact first_compiles ht uses (by simpa using hsource) hs₁ hnew hid hvs hn
termination_by structural n

lemma nodes_compiles (ht : TreesFollow h defs depth tree) (ns : List Node) {s s' : Draft}
    {cs : List Call} (hs : unlinked defs s ≤ depth) (hns : Yields (nodes h defs tree ns) s cs s') :
    ∃ vs, Compiles h defs ns s cs s' vs := by
  match ns with
  | [] =>
    obtain ⟨rfl, rfl⟩ := yields_pure_iff.1 hns
    exact ⟨[], .nil _⟩
  | n :: ns =>
    simp only [nodes, yields_bind_iff, yields_pure_iff] at hns
    obtain ⟨calls, s₁, hn, more, _, hns, rfl, rfl⟩ := hns
    obtain ⟨vs₁, hvs₁⟩ := node_compiles ht n hs hn
    obtain ⟨vs₂, hvs₂⟩ := nodes_compiles ht ns ((unlinked_le hvs₁.extension).trans hs) hns
    exact ⟨vs₁ ++ vs₂, hvs₁.append hvs₂⟩
termination_by structural ns

end

end Bound

/-- A compilation that succeeds follows the rules, if its depth is more than the number of
definitions that have no function yet. -/
lemma compileTree_compiles {h : Header} {defs : Table Value Definition} {depth : Nat}
    {ns : List Node} {s s' : Draft} {cs : List Call} (hs : unlinked defs s < depth)
    (hns : Yields (compileTree h defs depth ns) s cs s') :
    ∃ vs, Compiles h defs ns s cs s' vs := by
  induction depth generalizing ns s cs s' with
  | zero => cases hs
  | succ depth ih =>
    exact nodes_compiles (fun _ _ _ _ => ih) ns (Nat.lt_succ_iff.1 hs) hns

lemma unlinked_le_length {defs : Table Value Definition} (s : Draft) :
    unlinked defs s ≤ defs.length :=
  List.countP_le_length

/-- Nodes that are compiled are compiled by the rules. -/
lemma compiles_of_compileNodes {h : Header} {defs : Table Value Definition} {ns : List Node}
    {s s' : Draft} {cs : List Call} (hns : Yields (compileNodes h defs ns) s cs s') :
    ∃ vs, Compiles h defs ns s cs s' vs :=
  compileTree_compiles (Nat.lt_succ_of_le (unlinked_le_length s)) hns

/-- The rules by which a root definition becomes a program, with the visits of its nodes. -/
def Traces (h : Header) (defs : Table Value Definition) (root : Definition) (values : Value)
    (p : Program) (vs : List Visit) : Prop :=
  ∃ params code predefined calls s₁ s₂ s₃,
    Yields (Draft.interning (Argument.listOfValues h root values false)) .empty params s₁ ∧
    root.codeText = .ok code ∧
    Yields (Draft.interning (Predefined.build root h.lang)) s₁ predefined s₂ ∧
    Compiles h defs root.tree s₂ calls s₃ vs ∧
    p = {
      constants := s₃.constants.texts
      blocks := s₃.blocks
      run := {
        params
        logLevel := if root.logLevel == .inherit then h.logLevel else root.logLevel
        predefined
        code := rootCode code
        calls } }

/-- A program that compiles does so by the rules. -/
lemma exists_traces {h : Header} {defs : Table Value Definition} {root : Definition}
    {values : Value} {p : Program}
    (hp : (Draft.empty.perform (program h defs root values)).1 = .ok p) :
    ∃ vs, Traces h defs root values p vs := by
  obtain ⟨s, hs⟩ : ∃ s, Yields (program h defs root values) .empty p s :=
    ⟨_, Prod.ext hp rfl⟩
  simp only [program, programWith, yields_bind_iff, yields_liftFault_iff, yields_get_iff,
    yields_pure_iff] at hs
  obtain ⟨params, s₁, hparams, code, _, ⟨hcode, rfl⟩, predefined, s₂, hpre, calls, s₃, hcalls,
    _, _, ⟨rfl, rfl⟩, _, _, -, rfl, rfl⟩ := hs
  obtain ⟨vs, hvs⟩ := compiles_of_compileNodes hcalls
  exact ⟨vs, params, code, predefined, calls, _, s₂, _, hparams, hcode, hpre, hvs, rfl⟩

end Compile

end NodeScript
