import NodeScript.Proofs.Nesting

/-!
# The order of calls

The function of a definition is built after the functions of all that stands below its node and in
its tree, so a call inside a function names one that is built already. The exception is a definition
that is used again while its own function is being built, which takes a use of it below another:
among the nodes below a node, in the tree of its definition, or further down in the same way. Where
no definition is nested below itself like this, the calls between functions have no cycle.
-/

namespace NodeScript

open Relation (ReflTransGen TransGen)

/-! ### Nodes below nodes -/

/-- A node that is switched on stands below another: it is a child of it, or a node in the tree of
its definition. -/
inductive Node.Over (defs : Table Value Definition) : Node → Node → Prop
  | child {n m : Node} (mem : m ∈ n.children) (on : m.disabled = false) : Over defs n m
  | tree {n m : Node} {d : Definition} (found : Table.get? defs n.name = some d)
      (ordinary : d.isSourceCode = false) (mem : m ∈ d.tree) (on : m.disabled = false) :
      Over defs n m

/-- A node is among some nodes that are switched on, or below one of them. -/
def Node.Reached (defs : Table Value Definition) (ns : List Node) (m : Node) : Prop :=
  ∃ n ∈ ns, n.disabled = false ∧ ReflTransGen (Over defs) n m

/-- A node is a use of an ordinary definition with a name. -/
def Node.IsUse (defs : Table Value Definition) (name : Value) (n : Node) : Prop :=
  ∃ d, Table.get? defs n.name = some d ∧ d.isSourceCode = false ∧ d.name = name

/-- No definition is used below a use of itself. -/
def Node.Unnested (defs : Table Value Definition) (ns : List Node) : Prop :=
  ∀ n, Reached defs ns n → ∀ m, TransGen (Over defs) n m →
    ∀ name, n.IsUse defs name → ¬ m.IsUse defs name

namespace VisitTree

/-- Trees of visits stand below each other as their nodes do, and their definitions are those that
are found. -/
structure Mirrors (defs : Table Value Definition) (ns : List Node) (ts : List VisitTree) :
    Prop where
  top : ∀ t ∈ ts, t.visit.node ∈ ns ∧ t.visit.node.disabled = false
  found : ∀ t, Within ts t → Table.get? defs t.visit.node.name = some t.visit.definition
  nested : ∀ t u, Within ts t → t.Child u → Node.Over defs t.visit.node u.visit.node

variable {defs : Table Value Definition} {ns ms : List Node} {n : Node} {ts : List VisitTree}
  {t u : VisitTree}

lemma mirrors_nil : Mirrors defs ns [] := by
  refine ⟨by simp, ?_, ?_⟩
  · rintro t ⟨r, hr, -⟩
    cases hr
  · rintro t u ⟨r, hr, -⟩
    cases hr

lemma Mirrors.cons (hrest : Mirrors defs ns ts) (hnode : t.visit.node = n)
    (hon : n.disabled = false) (hfound : Table.get? defs n.name = some t.visit.definition)
    (hchildren : Mirrors defs n.children t.children) (hinner : Mirrors defs ms t.inner)
    (hms : ∀ m ∈ ms, m.disabled = false → Node.Over defs n m) :
    Mirrors defs (n :: ns) (t :: ts) := by
  subst hnode
  refine ⟨List.forall_mem_cons.2 ⟨⟨List.mem_cons_self, hon⟩, fun u hu => ?_⟩, fun u hu => ?_,
    fun u w hu huw => ?_⟩
  · exact (hrest.top u hu).imp_left (List.mem_cons_of_mem _)
  · obtain rfl | hu | hu | hu := hu.cases_cons
    · exact hfound
    · exact hchildren.found u hu
    · exact hinner.found u hu
    · exact hrest.found u hu
  · obtain rfl | hu | hu | hu := hu.cases_cons
    · obtain hw | hw := huw
      · obtain ⟨hmem, hw'⟩ := hchildren.top w hw
        exact .child hmem hw'
      · obtain ⟨hmem, hw'⟩ := hinner.top w hw
        exact hms _ hmem hw'
    · exact hchildren.nested u w hu huw
    · exact hinner.nested u w hu huw
    · exact hrest.nested u w hu huw

/-- Trees that follow nodes mirror them, if their definitions are those that are found. -/
lemma Follows.mirrors (hts : Follows ns ts)
    (hfound : ∀ v ∈ visitsAll ts, Table.get? defs v.node.name = some v.definition) :
    Mirrors defs ns ts := by
  induction hts with
  | nil => exact mirrors_nil
  | disabled _ _ ih =>
    obtain ⟨top, found, nested⟩ := ih hfound
    exact ⟨fun t ht => (top t ht).imp_left (List.mem_cons_of_mem _), found, nested⟩
  | again node on _ _ ih =>
    simp only [visitsAll, visits, List.mem_append, List.mem_singleton] at hfound
    refine (ih fun v hv => hfound v (.inr hv)).cons node on ?_ mirrors_nil
      (mirrors_nil : Mirrors defs [] []) (by simp)
    exact node ▸ hfound _ (.inl (.inr rfl))
  | ordinary node on _ ordinary _ _ _ ihc iht ihr =>
    simp only [visitsAll, visits, List.mem_append, List.mem_singleton] at hfound
    have hd := node ▸ hfound _ (.inl (.inr rfl))
    exact (ihr fun v hv => hfound v (.inr hv)).cons node on hd
      (ihc fun v hv => hfound v (.inl (.inl (.inl hv))))
      (iht fun v hv => hfound v (.inl (.inl (.inr hv)))) fun _ => .tree hd ordinary
  | source node on _ _ _ _ ihc ihr =>
    simp only [visitsAll, visits, List.mem_append, List.mem_singleton] at hfound
    refine (ihr fun v hv => hfound v (.inr hv)).cons node on ?_
      (ihc fun v hv => hfound v (.inl (.inl (.inl hv))))
      (mirrors_nil : Mirrors defs [] []) (by simp)
    exact node ▸ hfound _ (.inl (.inr rfl))

lemma Mirrors.reached (hts : Mirrors defs ns ts) (ht : Within ts t) :
    Node.Reached defs ns t.visit.node := by
  obtain ⟨r, hr, hrt⟩ := ht
  obtain ⟨hmem, hon⟩ := hts.top r hr
  refine ⟨r.visit.node, hmem, hon, ?_⟩
  induction hrt with
  | refl => exact .refl
  | tail hrt htu ih => exact ih.tail (hts.nested _ _ ⟨r, hr, hrt⟩ htu)

lemma Mirrors.transGen (hts : Mirrors defs ns ts) (ht : Within ts t) (htu : TransGen Child t u) :
    Within ts u ∧ TransGen (Node.Over defs) t.visit.node u.visit.node := by
  induction htu with
  | single htu => exact ⟨ht.child htu, .single (hts.nested _ _ ht htu)⟩
  | tail _ huw ih => exact ⟨ih.1.child huw, ih.2.tail (hts.nested _ _ ih.1 huw)⟩

/-- Where no definition is used below a use of itself, none is visited below a visit of itself. -/
lemma Mirrors.unnested (hts : Mirrors defs ns ts) (hns : Node.Unnested defs ns) : Unnested ts := by
  intro g u name hg hgu hguse huuse
  obtain ⟨hu, hover⟩ := hts.transGen hg hgu
  exact hns _ (hts.reached hg) _ hover name ⟨_, hts.found g hg, hguse.ordinary, hguse.named⟩
    ⟨_, hts.found u hu, huuse.ordinary, huuse.named⟩

end VisitTree

/-! ### Functions before their calls -/

/-- Each call inside a function names a function in a block before it. -/
def CallsEarlier (bs : List Block) : Prop :=
  ∀ before f after, bs = before ++ .function f :: after →
    ∀ c ∈ Block.calls (.function f), HasFunction before c.function

/-! ### Programs without recursion -/

namespace Program

/-- A function of a program has a call of another, which comes from a node. -/
def Invokes (p : Program) (f g : FunctionBlock) : Prop :=
  f ∈ p.functions ∧ g ∈ p.functions ∧ ∃ c ∈ Block.calls (.function f), c.function = g.id

/-- The position of a function among those of a program. -/
def rank (p : Program) (f : FunctionBlock) : Nat :=
  (p.functions.map (·.id)).idxOf f.id

variable {p : Program} {f g : FunctionBlock}

/-- Where calls name earlier functions, they go down in the list of functions. -/
lemma Invokes.rank_lt (hcall : p.Invokes f g) (hp : CallsEarlier p.blocks)
    (hids : (p.functions.map (·.id)).Nodup) : p.rank g < p.rank f := by
  obtain ⟨hf, -, c, hc, hid⟩ := hcall
  obtain ⟨b, hb, hbf⟩ := List.mem_filterMap.1 hf
  obtain rfl : b = .function f := by
    cases b with
    | function => exact congrArg Block.function (Option.some.inj hbf)
    | source => cases hbf
  obtain ⟨before, after, hsplit⟩ := List.append_of_mem hb
  obtain ⟨g', hg', hid'⟩ := hp before f after hsplit c hc
  have hfunctions : p.functions.map (·.id) =
      (before.filterMap Block.function?).map (·.id) ++
        f.id :: (after.filterMap Block.function?).map (·.id) := by
    simp [functions, hsplit, Block.function?]
  have hearlier : g.id ∈ (before.filterMap Block.function?).map (·.id) := by
    rw [← hid, ← hid']
    exact List.mem_map_of_mem (List.mem_filterMap.2 ⟨_, hg', rfl⟩)
  rw [hfunctions] at hids
  have hnot : f.id ∉ (before.filterMap Block.function?).map (·.id) :=
    fun hmem => (List.nodup_append.1 hids).2.2 _ hmem _ List.mem_cons_self rfl
  rw [rank, rank, hfunctions, List.idxOf_append_of_mem hearlier, List.idxOf_append_of_notMem hnot,
    List.idxOf_cons_self]
  exact (List.idxOf_lt_length_of_mem hearlier).trans_le (Nat.le_add_right _ _)

lemma rank_lt_of_transGen (hp : CallsEarlier p.blocks) (hids : (p.functions.map (·.id)).Nodup)
    (h : TransGen p.Invokes f g) : p.rank g < p.rank f := by
  induction h with
  | single hcall => exact hcall.rank_lt hp hids
  | tail _ hcall ih => exact (hcall.rank_lt hp hids).trans ih

end Program

namespace Compile

variable {h : Header} {defs : Table Value Definition} {root : Definition} {values : Value}
  {p : Program} {vs : List Visit}

/-- Each call inside a function of a program names an earlier one, if nothing is nested below
itself. -/
lemma Traces.callsEarlier (ht : Traces h defs root values p vs)
    (hroot : Node.Unnested defs root.tree) : CallsEarlier p.blocks := by
  obtain ⟨ts, hfollows, rfl, hearlier⟩ := ht.callsEarlierUnless
  obtain ⟨s, s', hc, -⟩ := ht.compiles
  have hts := (hfollows.mirrors fun v hv => hc.resolved hv).unnested hroot
  intro before f after heq c hc
  exact (hearlier before _ after heq c hc).resolve_right fun h => h.not_unnested hts

/-- The functions of a program do not call each other in a cycle, if no definition is nested below
itself. -/
theorem calls_acyclic (hroot : Node.Unnested defs root.tree)
    (hp : (Draft.empty.perform (program h defs root values)).1 = .ok p) (f : FunctionBlock) :
    ¬ TransGen p.Invokes f f := by
  intro hcycle
  obtain ⟨vs, ht⟩ := exists_traces hp
  exact lt_irrefl _ (Program.rank_lt_of_transGen (ht.callsEarlier hroot) ht.ids_nodup hcycle)

/-- Definitions with a place for calls, one of which has a tree. -/
def shelf : Table Value Definition :=
  [("case", { name := "case", code := "%body%", tree := [.mk "book" false [] []] }),
    ("board", { name := "board", code := "%body%" }),
    ("book", { name := "book", code := "%body%" })]

/-- A board with a book on it. -/
def board : Node := .mk "board" false [] [.mk "book" false [] []]

/-- A case with two boards. -/
def shelfRoot : Definition where
  name := "main"
  tree := [.mk "case" false [] [board, board]]

/-- The height of the nodes on the shelf. -/
def shelfRank (n : Node) : Nat :=
  if n.name = "case" then 2 else if n.name = "board" then 1 else 0

lemma shelf_over {n m : Node} (hn : n ∈ shelfRoot.tree ∨ n = board ∨ n = .mk "book" false [] [])
    (h : Node.Over shelf n m) :
    (m = board ∨ m = .mk "book" false [] []) ∧ shelfRank m < shelfRank n := by
  cases h with
  | child mem on =>
    obtain hn | rfl | rfl := hn
    · obtain rfl := List.mem_singleton.1 hn
      obtain rfl : m = board := by simpa [Node.children] using mem
      exact ⟨.inl rfl, by decide⟩
    · obtain rfl := List.mem_singleton.1 mem
      exact ⟨.inr rfl, by decide⟩
    · cases mem
  | tree found ordinary mem on =>
    obtain hn | rfl | rfl := hn
    · obtain rfl := List.mem_singleton.1 hn
      cases found
      obtain rfl := List.mem_singleton.1 mem
      exact ⟨.inr rfl, by decide⟩
    · cases found
      cases mem
    · cases found
      cases mem

lemma shelf_unnested : Node.Unnested shelf shelfRoot.tree := by
  rintro n ⟨k, hk, -, hkn⟩
  have hn : n ∈ shelfRoot.tree ∨ n = board ∨ n = .mk "book" false [] [] := by
    induction hkn with
    | refl => exact .inl hk
    | tail _ hover ih => exact .inr (shelf_over ih hover).1
  intro m hnm
  have hrank : (m = board ∨ m = .mk "book" false [] []) ∧ shelfRank m < shelfRank n := by
    induction hnm with
    | single hover => exact shelf_over hn hover
    | tail _ hover ih =>
      obtain ⟨hm, hlt⟩ := shelf_over (.inr ih.1) hover
      exact ⟨hm, hlt.trans ih.2⟩
  rintro _ ⟨d, hd, -, rfl⟩ ⟨d', hd', -, hsame⟩
  have hkeyed : Catalogue.Keyed shelf := by simp [Catalogue.Keyed, shelf]
  rw [hkeyed.name_eq hd, hkeyed.name_eq hd'] at hsame
  simp only [shelfRank, hsame, lt_irrefl, and_false] at hrank

theorem shelf_calls_acyclic : Node.Unnested shelf shelfRoot.tree ∧ ∃ p,
    (Draft.empty.perform (program .standard shelf shelfRoot (.table []))).1 = .ok p ∧
      ∀ f, ¬ TransGen p.Invokes f f := by
  have hok : (Draft.empty.perform (program .standard shelf shelfRoot (.table []))).1.isOk = true :=
    by decide +kernel
  obtain ⟨p, hp⟩ := exists_ok_of_isOk hok
  exact ⟨shelf_unnested, p, hp, calls_acyclic shelf_unnested hp⟩

/-- A definition without a tree. -/
def oneGroup : Table Value Definition :=
  [("group", { name := "group", code := "%body%" })]

/-- A group in a group. -/
def stackedRoot : Definition where
  name := "main"
  tree := [.mk "group" false [] [.mk "group" false [] []]]

/-- A definition that is nested below itself calls itself, although it has no tree. -/
theorem nested_use_calls_itself : (∀ e ∈ oneGroup, e.2.tree = []) ∧ ∃ p f,
    (Draft.empty.perform (program .standard oneGroup stackedRoot (.table []))).1 = .ok p ∧
      TransGen p.Invokes f f := by
  refine ⟨by simp [oneGroup], ?_⟩
  have hcall : (Draft.empty.perform (program .standard oneGroup stackedRoot (.table [])))
      |>.1.toOption.any (fun p => p.functions.any fun f =>
        (Block.calls (.function f)).any fun c => c.function == f.id) := by decide +kernel
  cases hp : (Draft.empty.perform (program .standard oneGroup stackedRoot (.table []))).1 with
  | error e => rw [hp] at hcall; cases hcall
  | ok p =>
    rw [hp] at hcall
    obtain ⟨f, hf, hcall⟩ := List.any_eq_true.1 hcall
    obtain ⟨c, hc, hid⟩ := List.any_eq_true.1 hcall
    exact ⟨p, f, rfl, .single ⟨hf, hf, c, hc, beq_iff_eq.1 hid⟩⟩

end Compile

end NodeScript
