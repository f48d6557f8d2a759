import NodeScript.Catalogue
import NodeScript.Proofs.Compilation

/-!
# Linked programs

The calls of a compiled program fit its function blocks: no two functions share an identifier, a
definition has one function however often it is used, code of the user has a function of its own at
each use, and each call names the function of its definition with as many arguments as that function
has parameters.

A definition is linked before its function is built, so a call may name a function that is not there
yet. `Compiles.linked` says that the functions of all names linked on the way are there at the end,
and `Compiles.ids_perm` that exactly the identifiers of those functions were reserved.
-/

namespace NodeScript

/-- The function in a block. -/
def Block.function? : Block → Option FunctionBlock
  | .function f => some f
  | .source _ => none

/-- The functions of a program. -/
def Program.functions (p : Program) : List FunctionBlock :=
  p.blocks.filterMap Block.function?

/-- The call in a piece of code. -/
def CodePiece.call? : CodePiece → Option Call
  | .text _ => none
  | .call c => some c

/-- The calls in some pieces of code. -/
def codeCalls (ps : List CodePiece) : List Call :=
  ps.filterMap CodePiece.call?

/-- The calls in a block. -/
def Block.calls : Block → List Call
  | .function f => codeCalls f.code ++ (f.scope.map (·.calls)).getD []
  | .source code => codeCalls code

/-- The calls in a program. -/
def Program.calls (p : Program) : List Call :=
  p.blocks.flatMap Block.calls ++ p.run.calls

/-- Filling places brings no other calls into code. -/
lemma codeCalls_fillParts (calls : List Call) (parts : List (List Char)) :
    codeCalls (fillParts calls parts) ⊆ calls := by
  induction parts with
  | nil => exact List.nil_subset _
  | cons part rest ih =>
    cases rest with
    | nil => exact List.nil_subset _
    | cons part' rest =>
      intro c hc
      simp only [fillParts, codeCalls, List.cons_append, List.filterMap_cons, CodePiece.call?,
        List.filterMap_append, List.mem_append] at hc
      obtain hc | hc := hc
      · simpa [CodePiece.call?] using hc
      · exact ih hc

namespace Visit

/-- The function that was built for the node itself. -/
def function? (v : Visit) : Option FunctionBlock :=
  v.block.bind Block.function?

lemma function?_eq_some_iff {v : Visit} {f : FunctionBlock} :
    v.function? = some f ↔ v.block = some (.function f) := by
  rw [function?]
  rcases v.block with _ | _ | _ <;> simp [Block.function?]

/-- The identifiers of the functions that were built. -/
def builtIds (vs : List Visit) : List String :=
  (vs.filterMap function?).map (·.id)

section

variable (n : Node) (d : Definition) (args : List Argument) (cs : List Call) (vs ws : List Visit)

@[simp] lemma builtIds_nil : builtIds [] = [] := rfl

@[simp] lemma builtIds_append : builtIds (vs ++ ws) = builtIds vs ++ builtIds ws := by
  rw [builtIds, List.filterMap_append, List.map_append]
  rfl

@[simp] lemma builtIds_cons_none : builtIds (⟨n, d, args, cs, none⟩ :: vs) = builtIds vs := rfl

@[simp] lemma builtIds_cons_function (f : FunctionBlock) :
    builtIds (⟨n, d, args, cs, some (.function f)⟩ :: vs) = f.id :: builtIds vs := rfl

@[simp] lemma builtIds_cons_source (code : List CodePiece) :
    builtIds (⟨n, d, args, cs, some (.source code)⟩ :: vs) = builtIds vs := rfl

end

/-- The calls in the blocks of some visits are calls of these visits. -/
def BlocksClosed (vs : List Visit) : Prop :=
  (vs.filterMap block).flatMap Block.calls ⊆ vs.flatMap calls

lemma BlocksClosed.append {vs ws : List Visit} (hvs : BlocksClosed vs) (hws : BlocksClosed ws) :
    BlocksClosed (vs ++ ws) := by
  intro c hc
  simp only [List.filterMap_append, List.flatMap_append, List.mem_append] at hc ⊢
  exact hc.imp (fun hc => hvs hc) (fun hc => hws hc)

lemma BlocksClosed.insert {vs ws : List Visit} {v : Visit} {b : Block} (hvs : BlocksClosed vs)
    (hws : BlocksClosed ws) (hv : v.block = some b) (hb : b.calls ⊆ vs.flatMap calls) :
    BlocksClosed (vs ++ v :: ws) := by
  intro c hc
  simp only [List.filterMap_append, List.filterMap_cons_some hv, List.flatMap_append,
    List.flatMap_cons, List.mem_append] at hc ⊢
  obtain hc | hc | hc := hc
  · exact .inl (hvs hc)
  · exact .inl (hb hc)
  · exact .inr (.inr (hws hc))

/-- Whether the node is code of the user that goes to the top level. -/
def isTopLevel (v : Visit) : Bool :=
  v.definition.isSourceCode && (v.args.head?.map (·.operand.render)) == some "true"

/-- A visit fits a draft: the call is that of the function linked to the definition, or that of the
function that the visit itself built. -/
inductive Fits (s : Draft) : Visit → Prop
  | again {n : Node} {d : Definition} {args : List Argument} {id : String}
      (ordinary : d.isSourceCode = false) (arity : args.length = d.params.length)
      (linked : s.linked.get? d.name = some id) :
      Fits s ⟨n, d, args, [⟨id, args.map (·.operand)⟩], none⟩
  | first {n : Node} {d : Definition} {args : List Argument} {f : FunctionBlock}
      (ordinary : d.isSourceCode = false) (arity : args.length = d.params.length)
      (linked : s.linked.get? d.name = some f.id) (named : f.definition = d.name)
      (params : f.params.length = d.params.length) :
      Fits s ⟨n, d, args, [⟨f.id, args.map (·.operand)⟩], some (.function f)⟩
  | topLevel {n : Node} {d : Definition} {args : List Argument} {code : List CodePiece}
      (source : d.isSourceCode = true)
      (marked : args.head?.map (·.operand.render) = some "true") :
      Fits s ⟨n, d, args, [], some (.source code)⟩
  | inline {n : Node} {d : Definition} {args : List Argument} {f : FunctionBlock}
      (source : d.isSourceCode = true)
      (unmarked : args.head?.map (·.operand.render) ≠ some "true") (named : f.definition = d.name)
      (params : f.params = []) :
      Fits s ⟨n, d, args, [⟨f.id, []⟩], some (.function f)⟩

lemma Fits.mono {s s' : Draft} {v : Visit} (hv : Fits s v) (hs : s.Extends s') : Fits s' v := by
  cases hv with
  | again ordinary arity linked => exact .again ordinary arity (hs.linked linked)
  | first ordinary arity linked named params =>
    exact .first ordinary arity (hs.linked linked) named params
  | topLevel source marked => exact .topLevel source marked
  | inline source unmarked named params => exact .inline source unmarked named params

end Visit

namespace Compile

lemma calls_functionOf_subset (d : Definition) (id : String) (args : List Argument) (code : String)
    (calls : List Call) (predefined : Option Nat) (inner : List Call) :
    Block.calls (.function (functionOf d id args code calls predefined inner)) ⊆
      calls ++ inner := by
  refine List.append_subset.2 ⟨?_, ?_⟩
  · exact List.subset_append_of_subset_left _ (codeCalls_fillParts _ _)
  · simp only [functionOf]
    split_ifs <;> simp

lemma calls_sourceFunction_subset (d : Definition) (id : String) (code : String)
    (calls : List Call) :
    Block.calls (.function (sourceFunction d id code calls)) ⊆ calls :=
  List.append_subset.2 ⟨codeCalls_fillParts _ _, List.nil_subset _⟩

/-- A visit made its arguments before a draft was reached. -/
def UsedBefore (h : Header) (defs : Table Value Definition) (s : Draft) (v : Visit) : Prop :=
  ∃ s₁ s₂, Uses h defs v.node v.definition v.args s₁ s₂ ∧ s₂.Extends s

lemma UsedBefore.mono {h : Header} {defs : Table Value Definition} {s s' : Draft} {v : Visit}
    (hv : UsedBefore h defs s v) (hs : s.Extends s') : UsedBefore h defs s' v := by
  obtain ⟨s₁, s₂, uses, hs₂⟩ := hv
  exact ⟨s₁, s₂, uses, hs₂.trans hs⟩

/-! ### What a compilation preserves -/

namespace Compiles

variable {h : Header} {defs : Table Value Definition} {ns : List Node} {s s' : Draft}
  {cs : List Call} {vs : List Visit}

/-- The blocks that are added are those of the visits. -/
lemma blocks_eq (hc : Compiles h defs ns s cs s' vs) :
    s'.blocks = s.blocks ++ vs.filterMap Visit.block := by
  induction hc with
  | nil => simp
  | disabled _ _ ih => exact ih
  | again uses _ _ _ ih =>
    obtain ⟨c, rfl, -⟩ := uses.only_constants
    rw [ih]
    rfl
  | first uses _ _ link _ _ interned _ add _ ihc iht ihr =>
    obtain ⟨c, rfl, -⟩ := uses.only_constants
    obtain ⟨name, -, -, rfl⟩ := Draft.yields_link link
    obtain ⟨c', rfl, -⟩ := yields_predefinedOf interned
    obtain ⟨hblocks, -⟩ := Draft.yields_addFunction add
    rw [ihr, hblocks, iht]
    simp [ihc]
  | topLevel uses _ _ _ add _ ihc ihr =>
    obtain ⟨c, rfl, -⟩ := uses.only_constants
    obtain rfl := Draft.yields_addBlock add
    rw [ihr]
    simp [ihc]
  | inline uses _ _ _ number add _ ihc ihr =>
    obtain ⟨c, rfl, -⟩ := uses.only_constants
    obtain ⟨-, -, -, hnumber, -⟩ := Draft.yields_nextSourceId number
    obtain ⟨hblocks, -⟩ := Draft.yields_addFunction add
    rw [ihr, hblocks, hnumber, ihc]
    simp

/-- The identifiers that are reserved are those of the functions that are built. -/
lemma ids_perm (hc : Compiles h defs ns s cs s' vs) :
    s'.ids.Perm (s.ids ++ Visit.builtIds vs) := by
  induction hc with
  | nil => simp
  | disabled _ _ ih => exact ih
  | again uses _ _ _ ih =>
    obtain ⟨c, rfl, -⟩ := uses.only_constants
    exact ih
  | first uses _ _ link _ _ interned _ add _ ihc iht ihr =>
    obtain ⟨c, rfl, -⟩ := uses.only_constants
    obtain ⟨name, -, -, rfl⟩ := Draft.yields_link link
    obtain ⟨c', rfl, -⟩ := yields_predefinedOf interned
    obtain ⟨-, -, hids, -⟩ := Draft.yields_addFunction add
    rw [hids] at ihr
    refine (ihr.trans ((iht.trans (ihc.append_right _)).append_right _)).trans ?_
    -- the identifier was reserved first, and its function is built last
    simp only [Visit.builtIds_append, Visit.builtIds_cons_function, functionOf, List.append_assoc,
      List.perm_append_left_iff, List.singleton_append]
    rw [← List.append_assoc, ← List.append_assoc]
    exact List.perm_middle.symm
  | topLevel uses _ _ _ add _ ihc ihr =>
    obtain ⟨c, rfl, -⟩ := uses.only_constants
    obtain rfl := Draft.yields_addBlock add
    refine (ihr.trans (ihc.append_right _)).trans ?_
    simp
  | inline uses _ _ _ number add _ ihc ihr =>
    obtain ⟨c, rfl, -⟩ := uses.only_constants
    obtain ⟨-, hnumber, -⟩ := Draft.yields_nextSourceId number
    obtain ⟨-, -, hids, -⟩ := Draft.yields_addFunction add
    rw [hids, hnumber] at ihr
    refine (ihr.trans ((ihc.append_right _).append_right _)).trans ?_
    simp [sourceFunction]

/-- No identifier is reserved twice. -/
lemma ids_nodup (hc : Compiles h defs ns s cs s' vs) (hs : s.ids.Nodup) : s'.ids.Nodup := by
  induction hc with
  | nil => exact hs
  | disabled _ _ ih => exact ih hs
  | again uses _ _ _ ih =>
    obtain ⟨c, rfl, -⟩ := uses.only_constants
    exact ih hs
  | first uses _ _ link _ _ interned _ add _ ihc iht ihr =>
    obtain ⟨c, rfl, -⟩ := uses.only_constants
    obtain ⟨name, -, hid, rfl⟩ := Draft.yields_link link
    obtain ⟨c', rfl, -⟩ := yields_predefinedOf interned
    obtain ⟨-, -, hids, -⟩ := Draft.yields_addFunction add
    exact ihr (hids ▸ iht (ihc (List.concat_eq_append ▸ hs.concat hid)))
  | topLevel uses _ _ _ add _ ihc ihr =>
    obtain ⟨c, rfl, -⟩ := uses.only_constants
    obtain rfl := Draft.yields_addBlock add
    exact ihr (ihc hs)
  | inline uses _ _ _ number add _ ihc ihr =>
    obtain ⟨c, rfl, -⟩ := uses.only_constants
    obtain ⟨hid, hnumber, -⟩ := Draft.yields_nextSourceId number
    obtain ⟨-, -, hids, -⟩ := Draft.yields_addFunction add
    exact ihr (hids ▸ hnumber ▸ List.concat_eq_append ▸ (ihc hs).concat hid)

/-- The visits fit the draft at the end. -/
lemma fits (hc : Compiles h defs ns s cs s' vs) : ∀ v ∈ vs, Visit.Fits s' v := by
  induction hc with
  | nil => simp
  | disabled _ _ ih => exact ih
  | again uses ordinary linked rest ih =>
    obtain ⟨c, rfl, arity, -⟩ := uses.only_constants
    exact List.forall_mem_cons.2 ⟨.again ordinary arity (rest.extension.linked linked), ih⟩
  | first uses ordinary new link children codeText interned tree add rest ihc iht ihr =>
    obtain ⟨c, rfl, arity, -⟩ := uses.only_constants
    have hlast := (Draft.extends_of_addFunction add).trans rest.extension
    have htree := (extends_of_predefinedOf interned).trans (tree.extension.trans hlast)
    have hid := htree.linked (children.extension.linked (Draft.linked_of_link link))
    rw [List.forall_mem_append, List.forall_mem_append, List.forall_mem_cons]
    refine ⟨⟨fun v hv => (ihc v hv).mono htree, fun v hv => (iht v hv).mono hlast⟩, ?_, ihr⟩
    exact .first (f := functionOf _ _ _ _ _ _ _) ordinary arity hid rfl
      ((List.length_map _).trans arity)
  | topLevel uses source children marked add rest ihc ihr =>
    have hlast := (Draft.extends_of_addBlock add).trans rest.extension
    rw [List.forall_mem_append, List.forall_mem_cons]
    refine ⟨fun v hv => (ihc v hv).mono hlast, ?_, ihr⟩
    exact .topLevel source (congrArg some marked)
  | inline uses source children unmarked number add rest ihc ihr =>
    have hadd := (Draft.extends_of_nextSourceId number).trans (Draft.extends_of_addFunction add)
    rw [List.forall_mem_append, List.forall_mem_cons]
    refine ⟨fun v hv => (ihc v hv).mono (hadd.trans rest.extension), ?_, ihr⟩
    exact .inline (f := sourceFunction _ _ _ _) source (fun hm => unmarked (Option.some.inj hm))
      rfl rfl

/-- A name that is linked on the way has its function at the end. -/
lemma linked (hc : Compiles h defs ns s cs s' vs) {name : Value} {id : String}
    (hid : s'.linked.get? name = some id) :
    s.linked.get? name = some id ∨ ∃ v ∈ vs, ∃ f, v.definition.name = name ∧
      v.definition.isSourceCode = false ∧ v.block = some (.function f) ∧ f.id = id := by
  induction hc with
  | nil => exact .inl hid
  | disabled _ _ ih => exact ih hid
  | again uses _ _ _ ih =>
    obtain ⟨c, rfl, -⟩ := uses.only_constants
    obtain hid | ⟨v, hv, hf⟩ := ih hid
    · exact .inl hid
    · exact .inr ⟨v, List.mem_cons_of_mem _ hv, hf⟩
  | first uses ordinary _ link _ _ interned _ add _ ihc iht ihr =>
    obtain ⟨c, rfl, -⟩ := uses.only_constants
    obtain ⟨text, hname, -, rfl⟩ := Draft.yields_link link
    obtain ⟨c', rfl, -⟩ := yields_predefinedOf interned
    obtain ⟨-, hlinked, -⟩ := Draft.yields_addFunction add
    rw [hlinked] at ihr
    obtain hid | ⟨v, hv, hf⟩ := ihr hid
    swap; · exact .inr ⟨v, by simp [hv], hf⟩
    obtain hid | ⟨v, hv, hf⟩ := iht hid
    swap; · exact .inr ⟨v, by simp [hv], hf⟩
    obtain hid | ⟨v, hv, hf⟩ := ihc hid
    swap; · exact .inr ⟨v, by simp [hv], hf⟩
    -- what is linked before the children is the definition itself, or was linked at the start
    simp only [hname, Table.get?_put_text] at hid
    split_ifs at hid with hk
    · cases hid
      exact .inr ⟨_, List.mem_append_right _ List.mem_cons_self, _, hname.trans hk.symm, ordinary,
        rfl, rfl⟩
    · exact .inl hid
  | topLevel uses _ _ _ add _ ihc ihr =>
    obtain ⟨c, rfl, -⟩ := uses.only_constants
    obtain rfl := Draft.yields_addBlock add
    obtain hid | ⟨v, hv, hf⟩ := ihr hid
    swap; · exact .inr ⟨v, by simp [hv], hf⟩
    obtain hid | ⟨v, hv, hf⟩ := ihc hid
    swap; · exact .inr ⟨v, by simp [hv], hf⟩
    exact .inl hid
  | inline uses _ _ _ number add _ ihc ihr =>
    obtain ⟨c, rfl, -⟩ := uses.only_constants
    obtain ⟨-, -, hnumber, -⟩ := Draft.yields_nextSourceId number
    obtain ⟨-, hlinked, -⟩ := Draft.yields_addFunction add
    rw [hlinked, hnumber] at ihr
    obtain hid | ⟨v, hv, hf⟩ := ihr hid
    swap; · exact .inr ⟨v, by simp [hv], hf⟩
    obtain hid | ⟨v, hv, hf⟩ := ihc hid
    swap; · exact .inr ⟨v, by simp [hv], hf⟩
    exact .inl hid

/-- Each visit makes the arguments of a node that is switched on, on the way to the end. -/
lemma usedBefore (hc : Compiles h defs ns s cs s' vs) : ∀ v ∈ vs, UsedBefore h defs s' v := by
  induction hc with
  | nil => simp
  | disabled _ _ ih => exact ih
  | again uses _ _ rest ih => exact List.forall_mem_cons.2 ⟨⟨_, _, uses, rest.extension⟩, ih⟩
  | first uses _ new link children _ interned tree add rest ihc iht ihr =>
    have hlast := (Draft.extends_of_addFunction add).trans rest.extension
    have htree := (extends_of_predefinedOf interned).trans (tree.extension.trans hlast)
    have hall := (Draft.extends_of_link link new).trans (children.extension.trans htree)
    rw [List.forall_mem_append, List.forall_mem_append, List.forall_mem_cons]
    exact ⟨⟨fun v hv => (ihc v hv).mono htree, fun v hv => (iht v hv).mono hlast⟩,
      ⟨_, _, uses, hall⟩, ihr⟩
  | topLevel uses _ children _ add rest ihc ihr =>
    have hlast := (Draft.extends_of_addBlock add).trans rest.extension
    rw [List.forall_mem_append, List.forall_mem_cons]
    exact ⟨fun v hv => (ihc v hv).mono hlast, ⟨_, _, uses, children.extension.trans hlast⟩, ihr⟩
  | inline uses _ children _ number add rest ihc ihr =>
    have hadd := (Draft.extends_of_nextSourceId number).trans (Draft.extends_of_addFunction add)
    have hlast := hadd.trans rest.extension
    rw [List.forall_mem_append, List.forall_mem_cons]
    exact ⟨fun v hv => (ihc v hv).mono hlast, ⟨_, _, uses, children.extension.trans hlast⟩, ihr⟩

lemma resolved (hc : Compiles h defs ns s cs s' vs) {v : Visit} (hv : v ∈ vs) :
    defs.get? v.node.name = some v.definition := by
  obtain ⟨s₁, s₂, uses, -⟩ := hc.usedBefore v hv
  exact get?_of_resolve uses.resolved

/-- The calls that come out, and those in the blocks, are calls of visits. -/
lemma calls_subset (hc : Compiles h defs ns s cs s' vs) :
    cs ⊆ vs.flatMap Visit.calls ∧ Visit.BlocksClosed vs := by
  induction hc with
  | nil => exact ⟨List.nil_subset _, List.nil_subset _⟩
  | disabled _ _ ih => exact ih
  | again _ _ _ _ ih =>
    exact ⟨List.cons_subset_cons _ ih.1, List.subset_cons_of_subset _ ih.2⟩
  | first _ _ _ _ _ _ _ _ _ _ ihc iht ihr =>
    constructor
    · rw [List.flatMap_append]
      exact List.subset_append_of_subset_right _ (List.cons_subset_cons _ ihr.1)
    · refine (ihc.2.append iht.2).insert ihr.2 rfl fun c hc => ?_
      rw [List.flatMap_append, List.mem_append]
      have hc := List.mem_append.1 (calls_functionOf_subset _ _ _ _ _ _ _ hc)
      exact hc.imp (fun hc => ihc.1 hc) (fun hc => iht.1 hc)
  | topLevel _ _ _ _ _ _ ihc ihr =>
    constructor
    · simp [ihr.1]
    · exact ihc.2.insert ihr.2 rfl fun c hc => ihc.1 (codeCalls_fillParts _ _ hc)
  | inline _ _ _ _ _ _ _ ihc ihr =>
    constructor
    · simp [ihr.1]
    · exact ihc.2.insert ihr.2 rfl fun c hc => ihc.1 (calls_sourceFunction_subset _ _ _ _ hc)

end Compiles

end Compile

/-! ### Linked programs -/

/-- Each definition of a catalogue stands under its name, which is a text. -/
def Catalogue.Keyed (defs : Catalogue) : Prop :=
  ∀ e ∈ defs, ∃ name, e.1 = .text name ∧ e.2.name = .text name

lemma Catalogue.Keyed.name_eq {defs : Catalogue} (hdefs : defs.Keyed) {name : Value}
    {d : Definition} (hd : Table.get? defs name = some d) : d.name = name := by
  obtain ⟨k, hmem, hsame⟩ := Table.exists_mem_of_get? hd
  obtain ⟨text, rfl, htext⟩ := hdefs _ hmem
  rw [(Value.text_same_iff text name).1 hsame]
  exact htext

/-- A program is linked, for the visits of its compilation. -/
structure Program.Linked (p : Program) (vs : List Visit) : Prop where
  /-- Each block was built by one visit. -/
  blocks : p.blocks = vs.filterMap Visit.block
  /-- No two functions share an identifier. -/
  ids : (p.functions.map (·.id)).Nodup
  /-- A definition has one function, built at one of its visits, and each of its visits is a call of
  that function with as many arguments as it has parameters. -/
  ordinary : ∀ v ∈ vs, v.definition.isSourceCode = false →
    ∃ f, (p.functions.filter fun f => f.definition = v.definition.name) = [f] ∧
      (∃ w ∈ vs, w.definition = v.definition ∧ w.block = some (.function f)) ∧
      v.calls = [⟨f.id, v.args.map (·.operand)⟩] ∧ v.args.length = f.params.length
  /-- Code of the user at the top level is not called. -/
  topLevel : ∀ v ∈ vs, v.isTopLevel = true →
    v.calls = [] ∧ ∃ code, v.block = some (.source code)
  /-- Other code of the user has a function without parameters at each of its visits. -/
  inline : ∀ v ∈ vs, v.definition.isSourceCode = true → v.isTopLevel = false →
    ∃ f, v.block = some (.function f) ∧ f.definition = v.definition.name ∧ f.params = [] ∧
      v.calls = [⟨f.id, []⟩]
  /-- Each call in the program is the call of a visit. -/
  calls : ∀ c ∈ p.calls, ∃ v ∈ vs, c ∈ v.calls

namespace Visit.Fits

variable {s : Draft} {v : Visit}

lemma ordinary_call (hv : v.Fits s) (hd : v.definition.isSourceCode = false) :
    ∃ id, s.linked.get? v.definition.name = some id ∧
      v.calls = [⟨id, v.args.map (·.operand)⟩] ∧ v.args.length = v.definition.params.length := by
  cases hv with
  | again _ arity linked => exact ⟨_, linked, rfl, arity⟩
  | first _ arity linked _ _ => exact ⟨_, linked, rfl, arity⟩
  | topLevel source | inline source => rw [source] at hd; cases hd

lemma ordinary_function (hv : v.Fits s) (hd : v.definition.isSourceCode = false)
    {f : FunctionBlock} (hf : v.block = some (.function f)) :
    s.linked.get? v.definition.name = some f.id ∧ f.params.length = v.definition.params.length := by
  cases hv with
  | again => cases hf
  | first _ _ linked _ params => cases hf; exact ⟨linked, params⟩
  | topLevel source | inline source => rw [source] at hd; cases hd

lemma function_definition (hv : v.Fits s) {f : FunctionBlock} (hf : v.block = some (.function f)) :
    f.definition = v.definition.name := by
  cases hv with
  | again | topLevel => cases hf
  | first _ _ _ named | inline _ _ named => cases hf; exact named

lemma topLevel_block (hv : v.Fits s) (htop : v.isTopLevel = true) :
    v.calls = [] ∧ ∃ code, v.block = some (.source code) := by
  rw [isTopLevel, Bool.and_eq_true, beq_iff_eq] at htop
  cases hv with
  | again ordinary | first ordinary => simp [ordinary] at htop
  | topLevel => exact ⟨rfl, _, rfl⟩
  | inline _ unmarked => exact (unmarked htop.2).elim

lemma inline_function (hv : v.Fits s) (hd : v.definition.isSourceCode = true)
    (htop : v.isTopLevel = false) :
    ∃ f, v.block = some (.function f) ∧ f.definition = v.definition.name ∧ f.params = [] ∧
      v.calls = [⟨f.id, []⟩] := by
  rw [isTopLevel, hd, Bool.true_and, beq_eq_false_iff_ne] at htop
  cases hv with
  | again ordinary | first ordinary => rw [ordinary] at hd; cases hd
  | topLevel _ marked => exact (htop marked).elim
  | inline _ _ named params => exact ⟨_, rfl, named, params, rfl⟩

/-- A call is that of the function of its visit, or of the function linked to its definition. -/
lemma function_of_call (hv : v.Fits s) {c : Call} (hc : c ∈ v.calls) :
    (∃ f, v.block = some (.function f) ∧ f.id = c.function) ∨
      s.linked.get? v.definition.name = some c.function := by
  cases hv with
  | again _ _ linked => exact .inr (by rw [List.mem_singleton.1 hc]; exact linked)
  | first | inline => exact .inl ⟨_, rfl, by rw [List.mem_singleton.1 hc]⟩
  | topLevel => cases hc

end Visit.Fits

namespace Compile

variable {h : Header} {defs : Catalogue} {root : Definition} {values : Value} {p : Program}
  {vs : List Visit}

/-- What the rules for a program say about the draft at its end. -/
lemma Traces.compiles (ht : Traces h defs root values p vs) :
    ∃ s s' : Draft, Compiles h defs root.tree s p.run.calls s' vs ∧ s.linked = [] ∧ s.ids = [] ∧
      s.blocks = [] ∧ p.blocks = s'.blocks ∧ p.constants = s'.constants.texts := by
  obtain ⟨params, code, predefined, calls, s₁, s₂, s₃, hparams, -, hpre, hc, rfl⟩ := ht
  obtain ⟨c, -, rfl⟩ := yields_interning_iff.1 hparams
  obtain ⟨c', -, rfl⟩ := yields_interning_iff.1 hpre
  exact ⟨_, s₃, hc, rfl, rfl, rfl, rfl, rfl⟩

lemma Traces.blocks_eq (ht : Traces h defs root values p vs) :
    p.blocks = vs.filterMap Visit.block := by
  obtain ⟨s, s', hc, -, -, hs, hp, -⟩ := ht.compiles
  rw [hp, hc.blocks_eq, hs, List.nil_append]

lemma Traces.functions_eq (ht : Traces h defs root values p vs) :
    p.functions = vs.filterMap Visit.function? := by
  rw [Program.functions, ht.blocks_eq, List.filterMap_filterMap]
  rfl

lemma Traces.ids_nodup (ht : Traces h defs root values p vs) :
    (p.functions.map (·.id)).Nodup := by
  obtain ⟨s, s', hc, -, hs, -⟩ := ht.compiles
  have hperm := hc.ids_perm
  rw [hs, List.nil_append] at hperm
  rw [ht.functions_eq]
  exact hperm.nodup_iff.1 (hc.ids_nodup (hs ▸ List.nodup_nil))

lemma Traces.mem_functions_iff (ht : Traces h defs root values p vs) {f : FunctionBlock} :
    f ∈ p.functions ↔ ∃ v ∈ vs, v.block = some (.function f) := by
  simp only [ht.functions_eq, List.mem_filterMap, Visit.function?_eq_some_iff]

/-- Each call of a program is the call of a visit. -/
lemma Traces.exists_visit_of_call (ht : Traces h defs root values p vs) {c : Call}
    (hmem : c ∈ p.calls) : ∃ v ∈ vs, c ∈ v.calls := by
  obtain ⟨s, s', hc, -⟩ := ht.compiles
  obtain ⟨hcalls, hblocks⟩ := hc.calls_subset
  rw [Program.calls, ht.blocks_eq, List.mem_append] at hmem
  exact List.mem_flatMap.1 (hmem.elim (fun hc => hblocks hc) (fun hc => hcalls hc))

/-- Visits of one name are visits of one definition. -/
lemma Traces.definition_eq (ht : Traces h defs root values p vs) (hdefs : defs.Keyed) {v w : Visit}
    (hv : v ∈ vs) (hw : w ∈ vs) (hname : w.definition.name = v.definition.name) :
    w.definition = v.definition := by
  obtain ⟨s, s', hc, -⟩ := ht.compiles
  have hgetv := hc.resolved hv
  have hgetw := hc.resolved hw
  rw [← hdefs.name_eq hgetw, hname, hdefs.name_eq hgetv, hgetv] at hgetw
  exact (Option.some.inj hgetw).symm

/-- A function with the name of a definition that was visited is the one that is linked to it, so
there are no two of them. -/
lemma Traces.functions_filter (ht : Traces h defs root values p vs) (hdefs : defs.Keyed)
    {v w : Visit} (hv : v ∈ vs) (hd : v.definition.isSourceCode = false) (hw : w ∈ vs)
    {f : FunctionBlock} (hname : w.definition.name = v.definition.name)
    (hf : w.block = some (.function f)) :
    (p.functions.filter fun f => f.definition = v.definition.name) = [f] := by
  obtain ⟨s, s', hc, -⟩ := ht.compiles
  have hlinked : ∀ u ∈ vs, ∀ g, u.block = some (.function g) →
      u.definition.name = v.definition.name →
      s'.linked.get? v.definition.name = some g.id := by
    intro u hu g hg hu'
    have hdef := ht.definition_eq hdefs hv hu hu'
    rw [← hdef]
    exact ((hc.fits u hu).ordinary_function (hdef ▸ hd) hg).1
  have hmem : ∀ g, g ∈ (p.functions.filter fun f => f.definition = v.definition.name) ↔
      g ∈ [f] := by
    intro g
    simp only [List.mem_filter, decide_eq_true_eq, List.mem_singleton]
    constructor
    · rintro ⟨hg, hgname⟩
      obtain ⟨u, hu, hblock⟩ := ht.mem_functions_iff.1 hg
      have hu' := ((hc.fits u hu).function_definition hblock).symm.trans hgname
      have hid := (hlinked u hu g hblock hu').symm.trans (hlinked w hw f hf hname)
      exact List.inj_on_of_nodup_map ht.ids_nodup hg (ht.mem_functions_iff.2 ⟨w, hw, hf⟩)
        (Option.some.inj hid)
    · rintro rfl
      exact ⟨ht.mem_functions_iff.2 ⟨w, hw, hf⟩,
        ((hc.fits w hw).function_definition hf).trans hname⟩
  have hnodup : p.functions.Nodup := ht.ids_nodup.of_map
  exact List.perm_singleton.1
    ((List.perm_ext_iff_of_nodup (hnodup.filter _) (List.nodup_singleton f)).2 hmem)

/-- The generated program is linked. -/
theorem program_linked (hdefs : defs.Keyed)
    (hp : (Draft.empty.perform (program h defs root values)).1 = .ok p) :
    (∃ vs, Traces h defs root values p vs) ∧
      ∀ vs, Traces h defs root values p vs → p.Linked vs := by
  refine ⟨exists_traces hp, fun vs ht => ?_⟩
  obtain ⟨s, s', hc, hnone, -⟩ := ht.compiles
  refine ⟨ht.blocks_eq, ht.ids_nodup, ?_, ?_, ?_, ?_⟩
  · intro v hv hd
    obtain ⟨id, hid, hcalls, harity⟩ := (hc.fits v hv).ordinary_call hd
    obtain hid | ⟨w, hw, f, hname, hw', hf, rfl⟩ := hc.linked hid
    · rw [hnone] at hid
      cases hid
    · have hdef := ht.definition_eq hdefs hv hw hname
      obtain ⟨-, hparams⟩ := (hc.fits w hw).ordinary_function hw' hf
      exact ⟨f, ht.functions_filter hdefs hv hd hw hname hf, ⟨w, hw, hdef, hf⟩, hcalls,
        by rw [harity, hparams, hdef]⟩
  · exact fun v hv => (hc.fits v hv).topLevel_block
  · exact fun v hv => (hc.fits v hv).inline_function
  · exact fun c hmem => ht.exists_visit_of_call hmem

/-- Definitions that use each other and whose names give one identifier, and code of the user. -/
def twins : Catalogue :=
  [("a b", {
      name := "a b"
      params := [{ name := "x" }]
      tree := [.mk "a-b" false [] []] }),
    ("a-b", {
      name := "a-b"
      tree := [
        .mk "a b" false [("x", "again")] [],
        .mk "source-code" false [("code", "f()")] []] }),
    ("source-code", {
      name := "source-code"
      params := [{ name := "global", kind := .checkbox }, { name := "code", kind := .textarea }] })]

/-- A root that uses one of the twins. -/
def twinsRoot : Definition where
  name := "main"
  tree := [.mk "a b" false [("x", "first")] []]

theorem twins_linked : twins.Keyed ∧ ∃ p,
    (Draft.empty.perform (program .standard twins twinsRoot (.table []))).1 = .ok p ∧
      (∃ vs, Traces .standard twins twinsRoot (.table []) p vs) ∧
      ∀ vs, Traces .standard twins twinsRoot (.table []) p vs → p.Linked vs := by
  have hdefs : twins.Keyed := by simp [Catalogue.Keyed, twins]
  have hok : (Draft.empty.perform (program .standard twins twinsRoot (.table []))).1.isOk = true :=
    by decide +kernel
  obtain ⟨p, hp⟩ := exists_ok_of_isOk hok
  exact ⟨hdefs, p, hp, program_linked hdefs hp⟩

end Compile

end NodeScript
