import NodeScript.Proofs.Linking

/-!
# Calls of functions that are still being built

The visits of a compilation form trees: below the visit of a node that added a block stand the
visits of its children and, for an ordinary definition, those of the nodes in the tree of the
definition. A block is added after all that stands below its visit. So a call inside a block names a
function in an earlier block, unless it is recursive: the definition that is called is used right
below the block, and its function is built at or above the block.
-/

namespace NodeScript

open Relation (ReflTransGen TransGen)

/-! ### Trees of visits -/

/-- A visit with the trees of the visits below its node and of those in the tree of its
definition. -/
inductive VisitTree where
  | mk (visit : Visit) (children inner : List VisitTree)

namespace VisitTree

/-- The visit at the top. -/
def visit : VisitTree → Visit
  | .mk visit _ _ => visit

/-- The trees of the visits below the node. -/
def children : VisitTree → List VisitTree
  | .mk _ children _ => children

/-- The trees of the visits in the tree of the definition. -/
def inner : VisitTree → List VisitTree
  | .mk _ _ inner => inner

mutual

/-- The visits of a tree, in the order in which they end. -/
def visits : VisitTree → List Visit
  | .mk visit children inner => visitsAll children ++ visitsAll inner ++ [visit]

/-- The visits of some trees, in the order in which they end. -/
def visitsAll : List VisitTree → List Visit
  | [] => []
  | t :: ts => t.visits ++ visitsAll ts

end

/-- Trees of visits follow nodes: there is one for each node that is switched on. Below a visit that
added a block, trees follow the children of its node and, for an ordinary definition, the tree of
the definition; below any other visit there is nothing. -/
inductive Follows : List Node → List VisitTree → Prop
  | nil : Follows [] []
  | disabled {n : Node} {ns : List Node} {ts : List VisitTree} (off : n.disabled = true)
      (rest : Follows ns ts) : Follows (n :: ns) ts
  | again {n : Node} {ns : List Node} {v : Visit} {ts : List VisitTree} (node : v.node = n)
      (on : n.disabled = false) (unbuilt : v.block = none) (rest : Follows ns ts) :
      Follows (n :: ns) (.mk v [] [] :: ts)
  | ordinary {n : Node} {ns : List Node} {v : Visit} {below inner ts : List VisitTree}
      (node : v.node = n) (on : n.disabled = false) (built : v.block.isSome = true)
      (ordinary : v.definition.isSourceCode = false) (children : Follows n.children below)
      (tree : Follows v.definition.tree inner) (rest : Follows ns ts) :
      Follows (n :: ns) (.mk v below inner :: ts)
  | source {n : Node} {ns : List Node} {v : Visit} {below ts : List VisitTree}
      (node : v.node = n) (on : n.disabled = false) (built : v.block.isSome = true)
      (source : v.definition.isSourceCode = true) (children : Follows n.children below)
      (rest : Follows ns ts) : Follows (n :: ns) (.mk v below [] :: ts)

/-- A tree stands right below another. -/
def Child (t u : VisitTree) : Prop :=
  u ∈ t.children ∨ u ∈ t.inner

/-- A tree is one of some trees, or stands below one of them. -/
def Within (ts : List VisitTree) (t : VisitTree) : Prop :=
  ∃ r ∈ ts, ReflTransGen Child r t

/-- The visit built the function with an identifier. -/
def Builds (t : VisitTree) (id : String) : Prop :=
  ∃ f, t.visit.block = some (.function f) ∧ f.id = id

/-- The visit is a use of the ordinary definition with a name. -/
structure IsUse (t : VisitTree) (name : Value) : Prop where
  ordinary : t.visit.definition.isSourceCode = false
  named : t.visit.definition.name = name

/-- A call in a block is recursive: it comes from a use, right below the visit `t` of the block, of
a definition whose function is built by a visit at or above `t`. -/
def RecursiveCall (ts : List VisitTree) (b : Block) (c : Call) : Prop :=
  ∃ g t u name, Within ts g ∧ g.IsUse name ∧ g.Builds c.function ∧ ReflTransGen Child g t ∧
    t.visit.block = some b ∧ Child t u ∧ u.IsUse name ∧ c ∈ u.visit.calls

/-- No definition is used below a use of itself. -/
def Unnested (ts : List VisitTree) : Prop :=
  ∀ g u name, Within ts g → TransGen Child g u → g.IsUse name → ¬ u.IsUse name

lemma RecursiveCall.not_unnested {ts : List VisitTree} {b : Block} {c : Call}
    (h : RecursiveCall ts b c) : ¬ Unnested ts := by
  obtain ⟨g, t, u, name, hg, hname, -, hgt, -, htu, huse, -⟩ := h
  exact fun hts => hts g u name hg (.tail' hgt htu) hname huse

lemma Within.mono {ts us : List VisitTree} {t : VisitTree} (ht : Within ts t) (hsub : ts ⊆ us) :
    Within us t := by
  obtain ⟨r, hr, hrt⟩ := ht
  exact ⟨r, hsub hr, hrt⟩

lemma Within.child {ts : List VisitTree} {t u : VisitTree} (ht : Within ts t) (htu : t.Child u) :
    Within ts u := by
  obtain ⟨r, hr, hrt⟩ := ht
  exact ⟨r, hr, hrt.tail htu⟩

lemma Within.cases_cons {ts : List VisitTree} {t u : VisitTree} (hu : Within (t :: ts) u) :
    u = t ∨ Within t.children u ∨ Within t.inner u ∨ Within ts u := by
  obtain ⟨r, hr, hru⟩ := hu
  obtain rfl | hr := List.mem_cons.1 hr
  · obtain rfl | ⟨w, hw | hw, hwu⟩ := hru.cases_head
    · exact .inl rfl
    · exact .inr (.inl ⟨w, hw, hwu⟩)
    · exact .inr (.inr (.inl ⟨w, hw, hwu⟩))
  · exact .inr (.inr (.inr ⟨r, hr, hru⟩))

/-- What stands within trees right below a tree stands below it. -/
lemma Within.transGen {ts : List VisitTree} {t u : VisitTree} (hu : Within ts u)
    (hts : ∀ r ∈ ts, Child t r) : TransGen Child t u := by
  obtain ⟨r, hr, hru⟩ := hu
  exact .head' (hts r hr) hru

lemma Within.up {ts : List VisitTree} {t u : VisitTree} (hu : Within ts u)
    (hts : ∀ r ∈ ts, Child t r) : Within [t] u :=
  ⟨t, List.mem_singleton_self t, (hu.transGen hts).to_reflTransGen⟩

/-! ### Calls of functions that are open -/

/-- A call comes from a use of a definition whose function is open. Open functions are given by the
names of their definitions and their identifiers. -/
structure CallsOpen (opened : List (Value × String)) (u : VisitTree) (c : Call) : Prop where
  use : u.IsUse u.visit.definition.name
  call : c ∈ u.visit.calls
  mem : (u.visit.definition.name, c.function) ∈ opened

/-- A call in a block of some visits is recursive, or calls a function that is open. -/
def Excused (ts : List VisitTree) (opened : List (Value × String)) (b : Block) (c : Call) : Prop :=
  RecursiveCall ts b c ∨
    ∃ t u, Within ts t ∧ t.visit.block = some b ∧ Child t u ∧ CallsOpen opened u c

/-- The functions in one list are open in another, or are built by a visit of their definition. -/
def Opens (t : VisitTree) (opened opened' : List (Value × String)) : Prop :=
  ∀ p ∈ opened', p ∈ opened ∨ t.IsUse p.1 ∧ t.Builds p.2

namespace Excused

variable {ts us : List VisitTree} {t u : VisitTree} {opened opened' : List (Value × String)}
  {b : Block} {c : Call}

lemma mono (h : Excused ts opened b c) (hsub : ts ⊆ us) : Excused us opened b c := by
  obtain ⟨g, t, u, name, hg, h⟩ | ⟨t, u, ht, h⟩ := h
  · exact .inl ⟨g, t, u, name, hg.mono hsub, h⟩
  · exact .inr ⟨t, u, ht.mono hsub, h⟩

lemma cons {excused : Block → Call → Prop}
    (h : (excused b c ∨ Excused [t] opened b c) ∨ Excused ts opened b c) :
    excused b c ∨ Excused (t :: ts) opened b c := by
  obtain (h | h) | h := h
  · exact .inl h
  · exact .inr (h.mono (List.cons_subset_cons _ (List.nil_subset _)))
  · exact .inr (h.mono (List.subset_cons_self _ _))

/-- A call of an open function, in a block at or below a visit. -/
lemma of_callsOpen (hopens : t.Opens opened opened') {r : VisitTree} (htr : ReflTransGen Child t r)
    (hblock : r.visit.block = some b) (hru : Child r u) (hu : CallsOpen opened' u c) :
    Excused [t] opened b c := by
  obtain hmem | ⟨huse, hbuilds⟩ := hopens _ hu.mem
  · exact .inr ⟨r, u, ⟨t, List.mem_singleton_self t, htr⟩, hblock, hru, hu.use, hu.call, hmem⟩
  · exact .inl ⟨t, r, u, _, ⟨t, List.mem_singleton_self t, .refl⟩, huse, hbuilds, htr, hblock, hru,
      hu.use, hu.call⟩

/-- What is excused among trees right below a tree is excused there. -/
lemma up (h : Excused ts opened' b c) (hts : ∀ r ∈ ts, Child t r)
    (hopens : t.Opens opened opened') : Excused [t] opened b c := by
  obtain ⟨g, r, u, name, hg, h⟩ | ⟨r, u, hr, hblock, hru, hu⟩ := h
  · exact .inl ⟨g, r, u, name, hg.up hts, h⟩
  · exact of_callsOpen hopens (hr.transGen hts).to_reflTransGen hblock hru hu

end Excused

end VisitTree

/-! ### Functions before their calls -/

/-- Some blocks hold the function with an identifier. -/
def HasFunction (bs : List Block) (id : String) : Prop :=
  ∃ f, Block.function f ∈ bs ∧ f.id = id

/-- Each call inside a block names a function in a block before it, unless it is excused. -/
def CallsEarlierUnless (excused : Block → Call → Prop) (bs : List Block) : Prop :=
  ∀ before b after, bs = before ++ b :: after →
    ∀ c ∈ b.calls, HasFunction before c.function ∨ excused b c

lemma HasFunction.append {bs : List Block} {id : String} (h : HasFunction bs id)
    (more : List Block) : HasFunction (bs ++ more) id := by
  obtain ⟨f, hf, rfl⟩ := h
  exact ⟨f, List.mem_append_left _ hf, rfl⟩

lemma hasFunction_concat (bs : List Block) (f : FunctionBlock) :
    HasFunction (bs ++ [.function f]) f.id :=
  ⟨f, List.mem_append_right _ List.mem_cons_self, rfl⟩

namespace CallsEarlierUnless

variable {excused excused' : Block → Call → Prop} {bs : List Block}

lemma nil : CallsEarlierUnless excused [] := by
  intro before b after heq
  simp at heq

lemma mono (h : CallsEarlierUnless excused bs) (hsub : ∀ b c, excused b c → excused' b c) :
    CallsEarlierUnless excused' bs :=
  fun before b after heq c hc => (h before b after heq c hc).imp_right (hsub b c)

lemma concat (h : CallsEarlierUnless excused bs) {b : Block}
    (hb : ∀ c ∈ b.calls, HasFunction bs c.function ∨ excused b c) :
    CallsEarlierUnless excused (bs ++ [b]) := by
  intro before b' after heq c hc
  -- the block is the last one, or stands among those before it
  rcases List.eq_nil_or_concat after with rfl | ⟨after, last, rfl⟩
  · obtain ⟨rfl, hlast⟩ := List.append_inj' heq rfl
    obtain rfl := List.singleton_inj.1 hlast
    exact hb c hc
  · rw [List.concat_eq_append, ← List.cons_append, ← List.append_assoc] at heq
    obtain ⟨rfl, -⟩ := List.append_inj' heq rfl
    exact h _ b' after rfl c hc

end CallsEarlierUnless

namespace Draft

/-- The functions of the linked names are built or open, and the calls in blocks name functions in
earlier blocks, unless they are excused. -/
structure Arranged (s : Draft) (opened : List (Value × String)) (excused : Block → Call → Prop) :
    Prop where
  built : ∀ name id, s.linked.get? name = some id → (name, id) ∈ opened ∨ HasFunction s.blocks id
  earlier : CallsEarlierUnless excused s.blocks

namespace Arranged

variable {s s' : Draft} {opened : List (Value × String)} {excused excused' : Block → Call → Prop}

lemma mono (hs : s.Arranged opened excused) (hsub : ∀ b c, excused b c → excused' b c) :
    s.Arranged opened excused' :=
  ⟨hs.built, hs.earlier.mono hsub⟩

lemma constants (hs : s.Arranged opened excused) (c : Constants) :
    { s with constants := c }.Arranged opened excused :=
  ⟨hs.built, hs.earlier⟩

/-- Linking a definition opens its function. -/
lemma link (hs : s.Arranged opened excused) {d : Definition} {id : String}
    (hlink : Yields (link d) s id s') : s'.Arranged ((d.name, id) :: opened) excused := by
  obtain ⟨text, hname, -, rfl⟩ := yields_link hlink
  refine ⟨fun name id' hid => ?_, hs.earlier⟩
  simp only [hname, Table.get?_put_text] at hid
  split_ifs at hid with hk
  · cases hid
    rw [hk, hname]
    exact .inl List.mem_cons_self
  · exact (hs.built name id' hid).imp_left (List.mem_cons_of_mem _)

lemma addBlock (hs : s.Arranged opened excused) {b : Block} (hblocks : s'.blocks = s.blocks ++ [b])
    (hlinked : s'.linked = s.linked)
    (hb : ∀ c ∈ b.calls, HasFunction s.blocks c.function ∨ excused b c) :
    s'.Arranged opened excused := by
  constructor
  · intro name id hid
    rw [hlinked] at hid
    rw [hblocks]
    exact (hs.built name id hid).imp_right (·.append _)
  · rw [hblocks]
    exact hs.earlier.concat hb

/-- The block of a visit is added after what stands below the visit. -/
lemma addVisit {opened' : List (Value × String)} {t : VisitTree}
    (hs : s.Arranged opened' fun b c =>
      (excused b c ∨ VisitTree.Excused t.children opened' b c) ∨
        VisitTree.Excused t.inner opened' b c)
    (hopens : t.Opens opened opened') {b : Block} (hblock : t.visit.block = some b)
    (hblocks : s'.blocks = s.blocks ++ [b]) (hlinked : s'.linked = s.linked)
    (hcalls : ∀ c ∈ b.calls,
      HasFunction s.blocks c.function ∨ ∃ u, t.Child u ∧ VisitTree.CallsOpen opened' u c) :
    s'.Arranged opened' fun b c => excused b c ∨ VisitTree.Excused [t] opened b c := by
  refine addBlock (hs.mono ?_) hblocks hlinked fun c hc => ?_
  · rintro b c ((h | h) | h)
    · exact .inl h
    · exact .inr (h.up (fun _ => .inl) hopens)
    · exact .inr (h.up (fun _ => .inr) hopens)
  · obtain hf | ⟨u, hu, hopen⟩ := hcalls c hc
    · exact .inl hf
    · exact .inr (.inr (.of_callsOpen hopens .refl hblock hu hopen))

/-- The block of a use of source code is added after the nodes below it. -/
lemma addSource {v : Visit} {ts : List VisitTree} {calls : List Call}
    (hs : s.Arranged opened fun b c => excused b c ∨ VisitTree.Excused ts opened b c)
    (hbelow : ∀ c ∈ calls,
      HasFunction s.blocks c.function ∨ ∃ u ∈ ts, VisitTree.CallsOpen opened u c)
    {b : Block} (hblock : v.block = some b) (hblocks : s'.blocks = s.blocks ++ [b])
    (hlinked : s'.linked = s.linked) (hcalls : b.calls ⊆ calls) :
    s'.Arranged opened fun b c => excused b c ∨ VisitTree.Excused [.mk v ts []] opened b c := by
  refine .addVisit (t := .mk v ts []) (hs.mono fun _ _ => .inl) (fun _ => .inl) hblock hblocks
    hlinked fun c hc => ?_
  exact (hbelow c (hcalls hc)).imp_right fun ⟨u, hu, hopen⟩ => ⟨u, .inl hu, hopen⟩

/-- A function that is built is no longer open. -/
lemma close {name : Value} {id : String} (hs : s.Arranged ((name, id) :: opened) excused)
    (hf : HasFunction s.blocks id) : s.Arranged opened excused := by
  refine ⟨fun name' id' hid => ?_, hs.earlier⟩
  obtain hmem | hf' := hs.built name' id' hid
  · obtain heq | hmem := List.mem_cons.1 hmem
    · cases heq
      exact .inr hf
    · exact .inl hmem
  · exact .inr hf'

/-- The function of a definition is added after the nodes below its first use and those of its tree,
and is open no longer. -/
lemma addOrdinary {v : Visit} {f : FunctionBlock} {ts₁ ts₂ : List VisitTree}
    {below inner : List Call} {opened' : List (Value × String)}
    (hopened : opened' = (v.definition.name, f.id) :: opened)
    (hs : s.Arranged opened' fun b c =>
      (excused b c ∨ VisitTree.Excused ts₁ opened' b c) ∨ VisitTree.Excused ts₂ opened' b c)
    (hbelow : ∀ c ∈ below,
      HasFunction s.blocks c.function ∨ ∃ u ∈ ts₁, VisitTree.CallsOpen opened' u c)
    (hinner : ∀ c ∈ inner,
      HasFunction s.blocks c.function ∨ ∃ u ∈ ts₂, VisitTree.CallsOpen opened' u c)
    (ordinary : v.definition.isSourceCode = false) (hblock : v.block = some (.function f))
    (hblocks : s'.blocks = s.blocks ++ [.function f]) (hlinked : s'.linked = s.linked)
    (hcalls : Block.calls (.function f) ⊆ below ++ inner) :
    s'.Arranged opened fun b c => excused b c ∨ VisitTree.Excused [.mk v ts₁ ts₂] opened b c := by
  subst hopened
  have hopens : (VisitTree.mk v ts₁ ts₂).Opens opened ((v.definition.name, f.id) :: opened) := by
    intro p hp
    obtain rfl | hp := List.mem_cons.1 hp
    · exact .inr ⟨⟨ordinary, rfl⟩, f, hblock, rfl⟩
    · exact .inl hp
  refine (addVisit hs hopens hblock hblocks hlinked fun c hc => ?_).close
    (hblocks ▸ hasFunction_concat _ f)
  obtain hc | hc := List.mem_append.1 (hcalls hc)
  · exact (hbelow c hc).imp_right fun ⟨u, hu, hopen⟩ => ⟨u, .inl hu, hopen⟩
  · exact (hinner c hc).imp_right fun ⟨u, hu, hopen⟩ => ⟨u, .inr hu, hopen⟩

end Arranged

end Draft

namespace Compile

open VisitTree

variable {h : Header} {defs : Table Value Definition} {ns : List Node} {s s' : Draft}
  {cs : List Call} {vs : List Visit}

lemma Compiles.hasFunction_mono (hc : Compiles h defs ns s cs s' vs) {id : String}
    (hid : HasFunction s.blocks id) : HasFunction s'.blocks id :=
  hc.blocks_eq ▸ hid.append _

/-- The visits of a compilation form trees that follow its nodes. The calls that come out and those
in the blocks name functions that are built, or come from uses of definitions whose functions are
open. -/
lemma Compiles.arranged (hc : Compiles h defs ns s cs s' vs) {opened : List (Value × String)}
    {excused : Block → Call → Prop} (hs : s.Arranged opened excused) :
    ∃ ts, Follows ns ts ∧ visitsAll ts = vs ∧
      s'.Arranged opened (fun b c => excused b c ∨ Excused ts opened b c) ∧
      ∀ c ∈ cs, HasFunction s'.blocks c.function ∨ ∃ u ∈ ts, CallsOpen opened u c := by
  induction hc generalizing opened excused with
  | nil => exact ⟨[], .nil, rfl, hs.mono fun _ _ => .inl, by simp⟩
  | disabled off _ ih =>
    obtain ⟨ts, hfollows, hrest⟩ := ih hs
    exact ⟨ts, .disabled off hfollows, hrest⟩
  | @again n _ d args id _ _ _ _ _ uses ordinary linked rest ih =>
    obtain ⟨k, rfl, -⟩ := uses.only_constants
    obtain ⟨ts, hfollows, rfl, hs', hcs⟩ := ih (hs.constants k)
    refine ⟨.mk ⟨n, d, args, [⟨id, args.map (·.operand)⟩], none⟩ [] [] :: ts,
      .again rfl uses.enabled rfl hfollows, rfl, ?_, List.forall_mem_cons.2 ⟨?_, fun c hc => ?_⟩⟩
    · exact hs'.mono fun b c => Or.imp_right (·.mono (List.subset_cons_self _ _))
    · obtain hmem | hf := hs.built _ _ linked
      · exact .inr ⟨_, List.mem_cons_self, ⟨ordinary, rfl⟩, List.mem_singleton_self _, hmem⟩
      · exact .inl (rest.hasFunction_mono hf)
    · exact (hcs c hc).imp_right List.exists_mem_cons_of_exists
  | @first n _ d args id code predefined _ _ _ _ _ s₅ s₆ _ below inner _ _ _ _ uses ordinary _ link
      _ _ interned tree add rest ihc iht ihr =>
    obtain ⟨k, rfl, -⟩ := uses.only_constants
    obtain ⟨k', rfl, -⟩ := yields_predefinedOf interned
    obtain ⟨hblocks, hlinked, -⟩ := Draft.yields_addFunction add
    -- the function is open while the nodes below and those of the tree are compiled
    obtain ⟨ts₁, hfollows₁, rfl, hs₃, hbelow⟩ := ihc ((hs.constants k).link link)
    obtain ⟨ts₂, hfollows₂, rfl, hs₅, hinner⟩ := iht (hs₃.constants k')
    let f := functionOf d id args code below predefined inner
    let v : Visit := ⟨n, d, args, [⟨id, args.map (·.operand)⟩], some (.function f)⟩
    have hs₆ := Draft.Arranged.addOrdinary (v := v) (f := f) rfl hs₅
      (fun c hc => (hbelow c hc).imp_left tree.hasFunction_mono) hinner ordinary rfl hblocks hlinked
      (calls_functionOf_subset _ _ _ _ _ _ _)
    obtain ⟨ts₃, hfollows₃, rfl, hs', hcs⟩ := ihr hs₆
    refine ⟨.mk v ts₁ ts₂ :: ts₃,
      .ordinary rfl uses.enabled rfl ordinary hfollows₁ hfollows₂ hfollows₃, ?_,
      hs'.mono fun _ _ => Excused.cons, List.forall_mem_cons.2 ⟨?_, fun c hc => ?_⟩⟩
    · simp [v, f, visitsAll, visits]
    · exact .inl (rest.hasFunction_mono (hblocks ▸ hasFunction_concat _ f))
    · exact (hcs c hc).imp_right List.exists_mem_cons_of_exists
  | @topLevel n _ d flag code args _ _ _ _ _ below _ _ _ uses source _ _ add _ ihc ihr =>
    obtain ⟨k, rfl, -⟩ := uses.only_constants
    have hadd := Draft.yields_addBlock add
    obtain ⟨ts₁, hfollows₁, rfl, hs₂, hbelow⟩ := ihc (hs.constants k)
    let b := Block.source (fillBody code.operand.render below)
    let v : Visit := ⟨n, d, flag :: code :: args, [], some b⟩
    have hs₃ := hs₂.addSource (v := v) hbelow rfl (congrArg Draft.blocks hadd) (by rw [hadd])
      (codeCalls_fillParts _ _)
    obtain ⟨ts₂, hfollows₂, rfl, hs', hcs⟩ := ihr hs₃
    refine ⟨.mk v ts₁ [] :: ts₂, .source rfl uses.enabled rfl source hfollows₁ hfollows₂, ?_,
      hs'.mono fun _ _ => Excused.cons, fun c hc => ?_⟩
    · simp [v, b, visitsAll, visits]
    · exact (hcs c hc).imp_right List.exists_mem_cons_of_exists
  | @inline n _ d flag code args id _ _ _ _ s₄ _ below _ _ _ uses source _ _ number add rest ihc
      ihr =>
    obtain ⟨k, rfl, -⟩ := uses.only_constants
    obtain ⟨-, -, hlinked, hblocks, -⟩ := Draft.yields_nextSourceId number
    obtain ⟨hblocks', hlinked', -⟩ := Draft.yields_addFunction add
    rw [hblocks] at hblocks'
    rw [hlinked] at hlinked'
    obtain ⟨ts₁, hfollows₁, rfl, hs₂, hbelow⟩ := ihc (hs.constants k)
    let f := sourceFunction d id code.operand.render below
    let v : Visit := ⟨n, d, flag :: code :: args, [⟨id, []⟩], some (.function f)⟩
    have hs₄ := hs₂.addSource (v := v) hbelow rfl hblocks' hlinked'
      (calls_sourceFunction_subset _ _ _ _)
    obtain ⟨ts₂, hfollows₂, rfl, hs', hcs⟩ := ihr hs₄
    refine ⟨.mk v ts₁ [] :: ts₂, .source rfl uses.enabled rfl source hfollows₁ hfollows₂, ?_,
      hs'.mono fun _ _ => Excused.cons, List.forall_mem_cons.2 ⟨?_, fun c hc => ?_⟩⟩
    · simp [v, f, visitsAll, visits]
    · exact .inl (rest.hasFunction_mono (hblocks' ▸ hasFunction_concat _ f))
    · exact (hcs c hc).imp_right List.exists_mem_cons_of_exists

variable {root : Definition} {values : Value} {p : Program}

/-- A call inside a block of a program names a function in an earlier block, unless it is
recursive. -/
lemma Traces.callsEarlierUnless (ht : Traces h defs root values p vs) :
    ∃ ts, Follows root.tree ts ∧ visitsAll ts = vs ∧
      CallsEarlierUnless (RecursiveCall ts) p.blocks := by
  obtain ⟨s, s', hc, hlinked, -, hblocks, hp, -⟩ := ht.compiles
  have hs : s.Arranged [] fun _ _ => False := by
    refine ⟨fun name id hid => ?_, hblocks ▸ .nil⟩
    rw [hlinked] at hid
    cases hid
  obtain ⟨ts, hfollows, hvisits, hs', -⟩ := hc.arranged hs
  refine ⟨ts, hfollows, hvisits, hp ▸ hs'.earlier.mono ?_⟩
  rintro b c (⟨⟨⟩⟩ | h | ⟨t, u, -, -, -, hopen⟩)
  · exact h
  · cases hopen.mem

/-- Functions come before their calls, except under recursion. The visits of a compilation form
trees that follow the nodes of the root; a call inside a block names a function in an earlier block,
or it is recursive: its function is built at or above the visit of the block. So where no definition
is used below itself, each call inside a block names a function in an earlier one. -/
theorem calls_earlier_or_recursive
    (hp : (Draft.empty.perform (program h defs root values)).1 = .ok p) :
    (∃ vs, Traces h defs root values p vs) ∧ ∀ vs, Traces h defs root values p vs →
      ∃ ts, Follows root.tree ts ∧ visitsAll ts = vs ∧
        (∀ before b after, p.blocks = before ++ b :: after →
          ∀ c ∈ b.calls, HasFunction before c.function ∨ RecursiveCall ts b c) ∧
        (Unnested ts → ∀ before b after, p.blocks = before ++ b :: after →
          ∀ c ∈ b.calls, HasFunction before c.function) := by
  refine ⟨exists_traces hp, fun vs ht => ?_⟩
  obtain ⟨ts, hfollows, hvisits, hearlier⟩ := ht.callsEarlierUnless
  refine ⟨ts, hfollows, hvisits, hearlier, fun hts before b after heq c hc => ?_⟩
  exact (hearlier before b after heq c hc).resolve_right fun h => h.not_unnested hts

theorem twins_calls_earlier_or_recursive : ∃ p,
    (Draft.empty.perform (program .standard twins twinsRoot (.table []))).1 = .ok p ∧
      (∃ vs, Traces .standard twins twinsRoot (.table []) p vs) ∧
      ∀ vs, Traces .standard twins twinsRoot (.table []) p vs →
        ∃ ts, Follows twinsRoot.tree ts ∧ visitsAll ts = vs ∧
          (∀ before b after, p.blocks = before ++ b :: after →
            ∀ c ∈ b.calls, HasFunction before c.function ∨ RecursiveCall ts b c) ∧
          (Unnested ts → ∀ before b after, p.blocks = before ++ b :: after →
            ∀ c ∈ b.calls, HasFunction before c.function) := by
  have hok : (Draft.empty.perform (program .standard twins twinsRoot (.table []))).1.isOk = true :=
    by decide +kernel
  obtain ⟨p, hp⟩ := exists_ok_of_isOk hok
  exact ⟨p, hp, calls_earlier_or_recursive hp⟩

end Compile

end NodeScript
