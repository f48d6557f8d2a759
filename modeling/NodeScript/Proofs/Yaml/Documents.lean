import Mathlib
import NodeScript.Proofs.Yaml.Entries
import NodeScript.Yaml.Data

/-!
# Tables of texts as documents

A table of texts is written as entries, and a document of such entries is read as the table of what
the texts are read as. A key that is too long for its line makes the document unreadable.
-/

namespace NodeScript.Yaml

open Cursor

variable {es : List (String × String)}

/-! ### Writing -/

/-- The entries of a table of texts. -/
def textEntries (es : List (String × String)) : List (Value × Value) :=
  es.map fun e => (.text e.1, .text e.2)

/-- The layout of a table of texts. -/
def textDocs (es : List (String × String)) : List (Doc × Doc) :=
  es.map fun e => (.text e.1, .text e.2)

namespace Pen

variable {p : Pen}

/-- The pen stands at the beginning of a line. -/
def Fresh (p : Pen) : Prop :=
  p.column = 0 ∧ p.spaced = true ∧ p.indenting = true

lemma indent_of_settled (h : p.Settled) :
    (p.indent 0).out.toList = p.out.toList ++ ['\n'] ∧ (p.indent 0).Fresh := by
  simp [indent, h.2, breakLine, Fresh]

lemma indent_of_fresh (h : p.Fresh) : p.indent 0 = p := by
  simp [indent, h.1, h.2.1, h.2.2]

/-- An entry is written from the beginning of a line on. -/
lemma exists_entry (h : (p.indent 0).Fresh) (e : String × String) :
    ∃ q : Pen, ∃ chunk, EntryForm e (chunk ++ ['\n']) ∧ q.Settled ∧
      q.out.toList = (p.indent 0).out.toList ++ chunk ∧
      ∀ rest, p.docEntries [] 0 ((.text e.1, .text e.2) :: rest) = q.docEntries [] 0 rest := by
  obtain ⟨k, v⟩ := e
  cases hi : (Doc.text k).isInlineKey with
  | true =>
    obtain ⟨wk, pk, hk, hkset, hkout⟩ := text_spelling true k
      (fun _ => not_foldable_of_isInlineKey hi) (p.indent 0)
    obtain ⟨wv, pv, hv, hvset, hvout⟩ := text_spelling false v (by simp)
      (((p.indent 0).text 2 true k).mark [':'] false false false)
    refine ⟨_, wk ++ ':' :: ' ' :: wv, ?_, hvset, ?_, fun rest => ?_⟩
    · have := EntryForm.inline hi hk hv
      simpa using this
    · rw [hvout, mark_out, hkout]
      simp [h.2.1]
    · rw [docEntries]
      simp only [hi, if_true]
      rfl
  | false =>
    obtain ⟨wk, pk, hk, hkset, hkout⟩ := text_spelling false k (by simp)
      ((p.indent 0).mark ['?'] true false true)
    obtain ⟨hline, hfresh⟩ := indent_of_settled hkset
    obtain ⟨wv, pv, hv, hvset, hvout⟩ := text_spelling false v (by simp)
      (((((p.indent 0).mark ['?'] true false true).text 2 false k).indent 0).mark [':']
        true false true)
    refine ⟨_, '?' :: ' ' :: (wk ++ '\n' :: ':' :: ' ' :: wv), ?_, hvset, ?_, fun rest => ?_⟩
    · have := EntryForm.marked hi hk hv
      simpa using this
    · rw [hvout, mark_out, hline, hkout, mark_out]
      simp [h.2.1, hfresh.2.1]
    · rw [docEntries]
      simp only [hi]
      rfl

/-- The entries of a table, and the line break after the last of them. -/
lemma exists_entries (h : p.Fresh ∨ p.Settled) (es : List (String × String)) :
    ∃ chunks, List.Forall₂ EntryForm es chunks ∧
      ((p.docEntries [] 0 (textDocs es)).indent 0).out.toList =
        (p.indent 0).out.toList ++ chunks.flatten := by
  induction es generalizing p with
  | nil => exact ⟨[], .nil, by simp [textDocs, docEntries]⟩
  | cons e es ih =>
    have hfresh : (p.indent 0).Fresh := by
      rcases h with h | h
      · rwa [indent_of_fresh h]
      · exact (indent_of_settled h).2
    obtain ⟨q, chunk, hentry, hset, hout, hdocs⟩ := exists_entry hfresh e
    obtain ⟨chunks, hchunks, hrest⟩ := ih (p := q) (.inr hset)
    refine ⟨(chunk ++ ['\n']) :: chunks, .cons hentry hchunks, ?_⟩
    have hdocs : p.docEntries [] 0 (textDocs (e :: es)) = q.docEntries [] 0 (textDocs es) :=
      hdocs (textDocs es)
    rw [hdocs, hrest, (indent_of_settled hset).1, hout]
    simp

end Pen

/-- The entries of a table of texts in the order in which they are written. -/
def sortedTexts (es : List (String × String)) : List (String × String) :=
  es.mergeSort fun a b => a.1 ≤ b.1

lemma mem_sortedTexts {e : String × String} : e ∈ sortedTexts es ↔ e ∈ es :=
  List.mem_mergeSort

lemma sortedTexts_ne_nil (h : es ≠ []) : sortedTexts es ≠ [] := by
  obtain ⟨e, he⟩ := List.exists_mem_of_ne_nil es h
  exact List.ne_nil_of_mem (mem_sortedTexts.2 he)

lemma sorted_textEntries (es : List (String × String)) :
    sorted (.table (textEntries es)) = .table (textEntries (sortedTexts es)) := by
  have values : ∀ es : List (String × String), sortedEntries (textEntries es) = textEntries es := by
    intro es
    induction es with
    | nil => rfl
    | cons e es ih => exact congrArg (_ :: ·) ih
  rw [sorted, values, sortedTexts, textEntries, textEntries, List.map_mergeSort]
  exact fun a _ b _ => rfl

lemma ofEntries_textEntries (path : List Nat) (next : Nat) (es : List (String × String)) :
    Doc.ofEntries path next (textEntries es) = .ok (textDocs es, next) := by
  induction es with
  | nil => rfl
  | cons e es ih =>
    have hcons : Doc.ofEntries path next (textEntries (e :: es)) =
        (Doc.ofEntries path next (textEntries es)).bind fun r =>
          .ok ((Doc.text e.1, Doc.text e.2) :: r.1, r.2) := rfl
    rw [hcons, ih]
    rfl

lemma targets_textDocs (es : List (String × String)) : Doc.targetsOfEntries (textDocs es) = [] := by
  induction es with
  | nil => rfl
  | cons e es ih => exact ih

/-- A table of texts is written as its entries in order. -/
lemma exists_entries_of_write {out : String} (hne : es ≠ [])
    (h : write (.table (textEntries es)) = .ok out) :
    ∃ chunks, List.Forall₂ EntryForm (sortedTexts es) chunks ∧ out.toList = chunks.flatten := by
  obtain ⟨chunks, hchunks, hout⟩ := Pen.start.exists_entries (.inl ⟨rfl, rfl, rfl⟩) (sortedTexts es)
  refine ⟨chunks, hchunks, ?_⟩
  have hdoc : Doc.ofValue [] 0 (.table (textEntries (sortedTexts es))) =
      .ok (.table 0 (textDocs (sortedTexts es)), 1) := by
    rw [Doc.ofValue, ofEntries_textEntries]
    rfl
  have htable : Pen.start.doc [] none .root (.table 0 (textDocs (sortedTexts es))) =
      Pen.start.docEntries [] 0 (textDocs (sortedTexts es)) := by
    obtain ⟨e, rest, he⟩ := List.exists_cons_of_ne_nil (sortedTexts_ne_nil hne)
    have hanchor : Pen.start.anchor [] 0 = Pen.start := rfl
    rw [he, textDocs, List.map_cons, Pen.doc, hanchor, deeper]
    simp
  rw [write, sorted_textEntries, hdoc] at h
  simp only [bind, Except.bind, Doc.targets, targets_textDocs, List.eraseDups_nil, htable] at h
  obtain rfl := Except.ok.inj h
  rw [hout, Pen.indent_of_fresh ⟨rfl, rfl, rfl⟩]
  simp [Pen.start]

/-! ### From tokens to nodes -/

/-- The node of a text. -/
def textNode (s : String) : Node :=
  .scalar (.scalar .text) s

/-- The kind of a scalar that stands for a text. -/
def tokenKind (plain : Bool) (s : String) : ScalarKind :=
  if plain then .ofPlain s else .text

lemma IsTokenOf.exists_scalar {k : String} {kt : Token} (h : IsTokenOf k kt) :
    ∃ plain, kt = .scalar k plain ∧ Node.scalar (.scalar (tokenKind plain k)) k = textNode k := by
  obtain ⟨plain, rfl, hp⟩ := h
  refine ⟨plain, rfl, ?_⟩
  cases plain with
  | false => rfl
  | true => rw [tokenKind, if_pos rfl, hp rfl, textNode]

namespace Reader

variable {ts : List Token} {stop : Option Stop} {handles : List (String × String)}
  {anchors : List String} {depth bound : Nat} {k v : String} {kt vt : Token}

lemma takeBlockEntries_cons (hk : IsTokenOf k kt) (hv : IsTokenOf v vt) :
    takeBlockEntries (bound + 4)
        ⟨.key :: kt :: .value :: vt :: ts, stop, handles, anchors, depth⟩ =
      (takeBlockEntries (bound + 3) ⟨ts, stop, handles, anchors, depth⟩).map
        fun r => ((textNode k, textNode v) :: r.1, r.2) := by
  obtain ⟨pk, rfl, hkn⟩ := hk.exists_scalar
  obtain ⟨pv, rfl, hvn⟩ := hv.exists_scalar
  rw [← hkn, ← hvn]
  change (takeBlockEntries (bound + 3) ⟨ts, stop, handles, anchors, depth⟩).bind
    (fun r => .ok ((_, _) :: r.1, r.2)) = _
  cases takeBlockEntries (bound + 3) ⟨ts, stop, handles, anchors, depth⟩ <;> rfl

lemma takeBlockEntries_of_entryTokens {ts' : List Token} (h : EntryTokens es ts')
    (hb : es.length + 4 ≤ bound) :
    takeBlockEntries bound ⟨ts' ++ .blockEnd :: ts, stop, handles, anchors, depth⟩ =
      .ok (es.map fun e => (textNode e.1, textNode e.2), ⟨ts, stop, handles, anchors, depth⟩) := by
  induction h generalizing bound with
  | nil =>
    obtain ⟨bound, rfl⟩ := Nat.exists_eq_add_of_le' hb
    rfl
  | cons hk hv hes ih =>
    obtain ⟨bound, rfl⟩ := Nat.exists_eq_add_of_le' (le_trans (Nat.le_add_left 4 _) hb)
    rw [List.cons_append, List.cons_append, List.cons_append, List.cons_append,
      takeBlockEntries_cons hk hv, ih (by simp only [List.length_cons] at hb; omega)]
    rfl

lemma takeBlockEntries_of_broken {ts' : List Token} {text : String} {plain : Bool}
    (h : EntryTokens es ts') (hb : es.length + 4 ≤ bound) :
    takeBlockEntries bound ⟨ts' ++ [.scalar text plain], stop, handles, anchors, depth⟩ =
      .error .invalid := by
  induction h generalizing bound with
  | nil =>
    obtain ⟨bound, rfl⟩ := Nat.exists_eq_add_of_le' hb
    rfl
  | cons hk hv hes ih =>
    obtain ⟨bound, rfl⟩ := Nat.exists_eq_add_of_le' (le_trans (Nat.le_add_left 4 _) hb)
    rw [List.cons_append, List.cons_append, List.cons_append, List.cons_append,
      takeBlockEntries_cons hk hv, ih (by simp only [List.length_cons] at hb; omega)]
    rfl

lemma takeNode_blockMapping :
    takeNode true false (bound + 1) ⟨.blockMappingStart :: ts, stop, handles, anchors, 0⟩ =
      (takeBlockEntries bound ⟨ts, stop, handles, anchors, 1⟩).map fun r =>
        (.mapping .mapping r.1, { r.2 with depth := r.2.depth - 1 }) := by
  change Except.bind (Except.bind (takeBlockEntries bound ⟨ts, stop, handles, anchors, 1⟩)
      fun r => .ok (r.1, { r.2 with depth := r.2.depth - 1 }))
    (fun r => .ok (Node.mapping .mapping r.1, r.2)) = _
  cases takeBlockEntries bound ⟨ts, stop, handles, anchors, 1⟩ <;> rfl

lemma takeText_blockMapping :
    takeText (bound + 1) ⟨.blockMappingStart :: ts, stop, handles, anchors, 0⟩ =
      (takeBlockEntries bound ⟨ts, stop, handles, anchors, 1⟩).bind fun r =>
        (takeEnd (bound + 1) { r.2 with depth := r.2.depth - 1 }).map fun q =>
          (some (.mapping .mapping r.1), q.2) := by
  change (takeNode true false (bound + 1)
      ⟨.blockMappingStart :: ts, stop, handles, anchors, 0⟩).bind
    (fun r => (takeEnd (bound + 1) r.2).bind fun q => .ok (some r.1, q.2)) = _
  rw [takeNode_blockMapping]
  cases takeBlockEntries bound ⟨ts, stop, handles, anchors, 1⟩ <;> rfl

end Reader

lemma EntryTokens.length_eq {ts : List Token} (h : EntryTokens es ts) :
    ts.length = 4 * es.length := by
  induction h with
  | nil => rfl
  | cons _ _ _ ih =>
    simp only [List.length_cons, ih]
    omega

/-- The node of a table of texts. -/
def textMapping (es : List (String × String)) : Node :=
  .mapping .mapping (es.map fun e => (textNode e.1, textNode e.2))

lemma ofText_of_entryTokens {cs : List Char} {ts : List Token} (h : EntryTokens es ts)
    (hcs : tokens cs = (.blockMappingStart :: ts ++ [.blockEnd, .streamEnd], none)) :
    Node.ofText cs = .ok (some (textMapping es)) := by
  simp only [Node.ofText, hcs, StateT.run, List.cons_append]
  rw [Reader.takeText_blockMapping, Reader.takeBlockEntries_of_entryTokens h]
  · rfl
  · simp only [List.length_cons, List.length_append, h.length_eq]
    omega

lemma ofText_of_brokenTokens {cs : List Char} {ts : List Token} (h : BrokenTokens ts)
    (hcs : tokens cs = (ts, some .invalid)) : Node.ofText cs = .error .invalid := by
  cases h with
  | first text plain =>
    simp only [Node.ofText, hcs]
    rfl
  | later hts text plain =>
    simp only [Node.ofText, hcs, StateT.run, List.cons_append]
    rw [Reader.takeText_blockMapping, Reader.takeBlockEntries_of_broken hts]
    · rfl
    · simp only [List.length_cons, List.length_append, hts.length_eq]
      omega

/-! ### From nodes to a graph -/

/-- The content of the node of a text. -/
def textContent (s : String) : Content :=
  .scalar (.scalar .text) s

/-- The contents of the parts of a table of texts, each key before its value. -/
def textContents (es : List (String × String)) : List Content :=
  es.flatMap fun e => [textContent e.1, textContent e.2]

/-- The numbers of the parts of a table of texts, from a number on. -/
def entryNumbers : Nat → List (String × String) → List (Nat × Nat)
  | _, [] => []
  | n, _ :: es => (n, n + 1) :: entryNumbers (n + 2) es

lemma Numbering.numberEntries_textNodes (es : List (String × String)) (s : Numbering) :
    (numberEntries (es.map fun e => (textNode e.1, textNode e.2))).run s =
      (entryNumbers s.graph.nodes.size es,
        ⟨⟨s.graph.nodes ++ (textContents es).toArray⟩, s.anchors⟩) := by
  induction es generalizing s with
  | nil => simp [numberEntries, textContents, entryNumbers, pure, StateT.pure, StateT.run]
  | cons e es ih =>
    have h := ih ⟨⟨(s.graph.nodes.push (textContent e.1)).push (textContent e.2)⟩, s.anchors⟩
    simp only [StateT.run] at h ⊢
    simp only [List.map_cons, numberEntries, textNode, number, add, bind, StateT.bind, get, getThe,
      MonadStateOf.get, StateT.get, set, StateT.set, pure, StateT.pure]
    simp only [textNode, textContent] at h
    rw [h]
    simp [textContents, entryNumbers, textContent]

lemma Graph.ofNode_textMapping :
    Graph.ofNode (textMapping es) =
      (⟨(.mapping .mapping (entryNumbers 1 es) :: textContents es).toArray⟩, 0) := by
  have h := Numbering.numberEntries_textNodes es ⟨⟨#[.mapping .mapping []]⟩, []⟩
  simp only [StateT.run, List.size_toArray, List.length_cons, List.length_nil] at h
  simp only [Graph.ofNode, textMapping, Numbering.number, Numbering.add, Numbering.complete, bind,
    StateT.bind, get, getThe, MonadStateOf.get, StateT.get, set, StateT.set, modify, modifyGet,
    MonadStateOf.modifyGet, StateT.modifyGet, pure, StateT.pure, StateT.run]
  simp [h, Graph.setContent]

/-- Whether the parts of an entry are the nodes of two texts. -/
def Graph.HoldsEntry (g : Graph) (p : Nat × Nat) (e : String × String) : Prop :=
  g.content p.1 = textContent e.1 ∧ g.content p.2 = textContent e.2

lemma Graph.holdsEntry_entryNumbers (es : List (String × String)) (cs : List Content) :
    List.Forall₂ (Graph.HoldsEntry ⟨(cs ++ textContents es).toArray⟩)
      (entryNumbers cs.length es) es := by
  induction es generalizing cs with
  | nil => exact .nil
  | cons e es ih =>
    have h := ih (cs ++ [textContent e.1, textContent e.2])
    rw [List.append_assoc, List.length_append] at h
    refine .cons ⟨?_, ?_⟩ h
    · simp [Graph.content, textContents]
    · simp [Graph.content, textContents]

/-! ### From a graph to a value -/

namespace Graph

variable {g : Graph} {n : Nat} {s : String} {ns : List (Nat × Nat)}

lemma hasKind_of_text (h : g.content n = textContent s) : g.hasKind .merge n = false := by
  rw [hasKind, h]
  rfl

lemma plainKey_of_text (h : g.content n = textContent s) : g.plainKey n = g := by
  rw [plainKey, h]
  rfl

lemma setContent_self (h : n < g.nodes.size) : g.setContent n (g.content n) = g := by
  cases g
  simp [setContent, content, Array.setIfInBounds, h]

/-- A table of texts has nothing to merge. -/
lemma mergeInto_of_texts (hn : g.content n = .mapping .mapping ns) (hlt : n < g.nodes.size)
    (hns : ∀ p ∈ ns, ∃ s, g.content p.1 = textContent s) (bound : Nat) :
    g.mergeInto n [] bound = .ok g := by
  have hsplit : g.splitMerge? ns = none := by
    have hnone : ns.findIdx? (fun e => g.hasKind .merge e.1) = none := by
      rw [List.findIdx?_eq_none_iff]
      intro p hp
      obtain ⟨s, hs⟩ := hns p hp
      exact hasKind_of_text hs
    rw [splitMerge?, hnone]
  have hplain : ns.foldl (fun g e => g.plainKey e.1) g = g := by
    clear hn hsplit
    induction ns with
    | nil => rfl
    | cons p ns ih =>
      obtain ⟨s, hs⟩ := hns p List.mem_cons_self
      rw [List.foldl_cons, plainKey_of_text hs]
      exact ih fun q hq => hns q (List.mem_cons_of_mem p hq)
  cases bound with
  | zero => rfl
  | succ bound =>
    rw [mergeInto, hn]
    simp only [hsplit, hplain, List.nil_append, ← hn, setContent_self hlt]

lemma exists_key_of_holdsEntry (h : List.Forall₂ g.HoldsEntry ns es) :
    ∀ p ∈ ns, ∃ s, g.content p.1 = textContent s := by
  induction h with
  | nil => simp
  | cons he _ ih =>
    rintro p (_ | ⟨_, hp⟩)
    · exact ⟨_, he.1⟩
    · exact ih p hp

end Graph

/-- The table of some entries, of which the last wins. -/
def textTable (es : List (String × String)) : Table Value Value :=
  es.foldl (fun t e => t.put (.text e.1) (.text e.2)) []

namespace Survey

variable {s : Survey} {n : Nat} {t : String} {ns : List (Nat × Nat)}

/-- Whether no node of a text has a mark of something else. -/
structure Sound (s : Survey) : Prop where
  size : s.marks.size = s.graph.nodes.size
  mark : ∀ n t, s.graph.content n = textContent t →
    s.mark n = .unseen ∨ s.mark n = .scalar (.text t)

lemma lt_size_of_text {g : Graph} (h : g.content n = textContent t) : n < g.nodes.size := by
  by_contra hn
  simp [Graph.content, textContent, hn] at h

lemma scalarOf_text {g : Graph} (h : g.content n = textContent t) :
    scalarOf g n = .ok (.text t) := by
  simp only [scalarOf, scalarText, h, textContent]
  rfl

lemma getD_setIfInBounds {marks : Array Mark} {m : Nat} {x : Mark} (h : n < marks.size) :
    (marks.setIfInBounds n x).getD m .unseen = if n = m then x else marks.getD m .unseen := by
  rw [Array.getD_eq_getD_getElem?, Array.getElem?_setIfInBounds, Array.getD_eq_getD_getElem?]
  split <;> simp_all

/-- Looking at a text marks it and keeps the marks of the others. -/
lemma look_text (hs : s.Sound) (h : s.graph.content n = textContent t) :
    ∃ marks, look n s = .ok ((), { s with marks }) ∧ Sound { s with marks } ∧
      marks.getD n .unseen = .scalar (.text t) ∧
      ∀ m v, s.mark m = .scalar v → marks.getD m .unseen = .scalar v := by
  have hlt : n < s.marks.size := hs.size ▸ lt_size_of_text h
  rcases hs.mark n t h with hmark | hmark
  · refine ⟨s.marks.setIfInBounds n (.scalar (.text t)), ?_, ⟨?_, ?_⟩, ?_, ?_⟩
    · simp only [look, bind, StateT.bind, get, getThe, MonadStateOf.get, StateT.get, Except.bind,
        pure, Except.pure, hmark, scalarOf_text h]
      rw [h]
      rfl
    · simpa using hs.size
    · intro m u hm
      rw [Survey.mark, getD_setIfInBounds hlt]
      split
      case isTrue hnm =>
        subst hnm
        obtain rfl : t = u := by simpa [textContent, h] using hm
        exact .inr rfl
      case isFalse => exact hs.mark m u hm
    · rw [getD_setIfInBounds hlt, if_pos rfl]
    · intro m v hm
      rw [getD_setIfInBounds hlt, if_neg]
      · exact hm
      · rintro rfl
        simp [hmark] at hm
  · refine ⟨s.marks, ?_, hs, hmark, fun m v hm => hm⟩
    simp only [look, bind, StateT.bind, get, getThe, MonadStateOf.get, StateT.get, Except.bind,
      pure, Except.pure, hmark, StateT.pure]

/-- Whether the parts of an entry have the marks of two texts. -/
def MarksEntry (s : Survey) (p : Nat × Nat) (e : String × String) : Prop :=
  s.mark p.1 = .scalar (.text e.1) ∧ s.mark p.2 = .scalar (.text e.2)

lemma lookEntries_cons {s₁ s₂ : Survey} {k v : Nat} (hk : look k s = .ok ((), s₁))
    (hc : (s₁.graph.content k).tag.isCollection = false) (hv : look v s₁ = .ok ((), s₂)) :
    lookEntries ((k, v) :: ns) s = lookEntries ns s₂ := by
  simp [lookEntries, bind, StateT.bind, get, getThe, MonadStateOf.get, StateT.get, Except.bind,
    pure, Except.pure, hk, hc, hv]

lemma lookEntries_texts {g : Graph} (h : List.Forall₂ g.HoldsEntry ns es) (hs : s.Sound)
    (hg : s.graph = g) :
    ∃ marks, lookEntries ns s = .ok ((), { s with marks }) ∧
      List.Forall₂ (MarksEntry { s with marks }) ns es ∧
      ∀ m v, s.mark m = .scalar v → marks.getD m .unseen = .scalar v := by
  induction h generalizing s with
  | nil => exact ⟨s.marks, rfl, .nil, fun m v hm => hm⟩
  | cons he _ ih =>
    subst hg
    obtain ⟨marks₁, hl₁, hs₁, hm₁, hk₁⟩ := look_text hs he.1
    obtain ⟨marks₂, hl₂, hs₂, hm₂, hk₂⟩ := look_text hs₁ he.2
    obtain ⟨marks, hl, hmarks, hk⟩ := ih hs₂ rfl
    refine ⟨marks, ?_, .cons ⟨hk _ _ (hk₂ _ _ hm₁), hk _ _ hm₂⟩ hmarks,
      fun m v hm => hk m v (hk₂ m v (hk₁ m v hm))⟩
    rw [lookEntries_cons hl₁ (by rw [he.1]; rfl) hl₂, hl]

lemma look_collection (hmark : s.mark n = .unseen)
    (hc : (s.graph.content n).tag.isCollection = true) :
    look n s = .ok ((),
      { s with marks := s.marks.setIfInBounds n .collection, pending := s.pending ++ [n] }) := by
  simp only [look, bind, StateT.bind, get, getThe, MonadStateOf.get, StateT.get, Except.bind,
    pure, Except.pure, hmark, hc]
  rfl

lemma openNode_mapping (hn : s.graph.content n = .mapping .mapping ns)
    (hm : s.graph.mergeInto n [] s.bound = .ok s.graph) : openNode n s = lookEntries ns s := by
  simp only [openNode, bind, StateT.bind, get, getThe, MonadStateOf.get, StateT.get, Except.bind,
    pure, Except.pure, hn, hm, liftM, monadLift, MonadLift.monadLift, StateT.lift, set, StateT.set]

lemma openAll_single {s' : Survey} (bound : Nat) (hs : s.pending = [n])
    (ho : openNode n { s with pending := [] } = .ok ((), s')) (hs' : s'.pending = []) :
    openAll (bound + 1) s = .ok ((), s') := by
  have hdone : openAll bound s' = .ok ((), s') := by
    cases bound with
    | zero => rfl
    | succ bound =>
      simp [openAll, bind, StateT.bind, get, getThe, MonadStateOf.get, StateT.get, Except.bind,
        pure, Except.pure, StateT.pure, hs']
  simp [openAll, bind, StateT.bind, get, getThe, MonadStateOf.get, StateT.get, Except.bind,
    pure, Except.pure, set, StateT.set, hs, ho, hdone]

/-- The survey of a table of texts marks all its parts. -/
lemma ofGraph_texts {g : Graph} (hg : g.content 0 = .mapping .mapping ns) (hlt : 0 < g.nodes.size)
    (h : List.Forall₂ g.HoldsEntry ns es) :
    ∃ s, ofGraph g 0 = .ok s ∧ s.graph = g ∧ List.Forall₂ s.MarksEntry ns es := by
  obtain ⟨count, hcount⟩ := Nat.exists_eq_succ_of_ne_zero hlt.ne'
  let start : Survey := ⟨g, Array.replicate g.nodes.size .unseen, [], g.mergeBound⟩
  let seen : Survey := { start with marks := start.marks.setIfInBounds 0 .collection }
  have hunseen (n : Nat) : start.mark n = .unseen := by
    rw [Survey.mark, Array.getD_eq_getD_getElem?, Array.getElem?_replicate]
    split <;> rfl
  have hs : seen.Sound := by
    refine ⟨by simp [seen, start], fun n t hn => .inl ?_⟩
    have hne : 0 ≠ n := by
      rintro rfl
      rw [hg] at hn
      cases hn
    rw [Survey.mark, getD_setIfInBounds (by simpa [start] using hlt), if_neg hne]
    exact hunseen n
  obtain ⟨marks, hl, hmarks, -⟩ := lookEntries_texts h hs rfl
  have hmerge := Graph.mergeInto_of_texts hg hlt (Graph.exists_key_of_holdsEntry h) g.mergeBound
  have hopen : openNode 0 seen = .ok ((), { seen with marks }) := by
    rw [openNode_mapping hg hmerge, hl]
  have hlook : look 0 start = .ok ((), { seen with pending := [0] }) :=
    look_collection (hunseen 0) (by rw [hg]; rfl)
  have hall : openAll (count + 1) { seen with pending := [0] } = .ok ((), { seen with marks }) :=
    openAll_single count rfl hopen rfl
  refine ⟨_, ?_, rfl, hmarks⟩
  change ((look 0 start).bind fun r => openAll g.nodes.size r.2).bind (fun r => .ok r.2) = _
  rw [hlook, hcount]
  exact congrArg (·.bind fun r => .ok r.2) hall

lemma document_texts (hg : s.graph.content 0 = .mapping .mapping ns)
    (h : List.Forall₂ s.MarksEntry ns es) : s.document 0 = .table (textTable es) := by
  have hvalue {n : Nat} {t : String} (hn : s.mark n = .scalar (.text t)) : s.value n = .text t := by
    rw [value, valueAt, hn]
  have hfold (t : Table Value Value) :
      ns.foldl (fun t e => t.put (s.value e.1) (s.value e.2)) t =
        es.foldl (fun t e => t.put (.text e.1) (.text e.2)) t := by
    clear hg
    induction h generalizing t with
    | nil => rfl
    | cons he _ ih => rw [List.foldl_cons, List.foldl_cons, hvalue he.1, hvalue he.2, ih]
  rw [document, hg]
  exact congrArg Value.table (hfold [])

lemma exists_document_textMapping (es : List (String × String)) :
    ∃ s, ofGraph (Graph.ofNode (textMapping es)).1 (Graph.ofNode (textMapping es)).2 = .ok s ∧
      s.document (Graph.ofNode (textMapping es)).2 = .table (textTable es) := by
  rw [Graph.ofNode_textMapping]
  have hg := Graph.holdsEntry_entryNumbers es [.mapping .mapping (entryNumbers 1 es)]
  obtain ⟨s, hs, hgraph, hmarks⟩ := ofGraph_texts rfl (by simp) hg
  exact ⟨s, hs, document_texts (by rw [hgraph]; rfl) hmarks⟩

end Survey

/-! ### Reading back -/

variable {chunks : List (List Char)} {out : String}

lemma read_of_node {n : Node} (h : Node.ofText out.toList = .ok (some n)) :
    read out = (Survey.ofGraph (Graph.ofNode n).1 (Graph.ofNode n).2).map
      fun s => s.document (Graph.ofNode n).2 := by
  rw [read, h]
  change (Survey.ofGraph (Graph.ofNode n).1 (Graph.ofNode n).2).bind
    (fun s => .ok (s.document (Graph.ofNode n).2)) = _
  cases Survey.ofGraph (Graph.ofNode n).1 (Graph.ofNode n).2 <;> rfl

lemma read_of_entries (h : List.Forall₂ EntryForm es chunks) (hne : es ≠ [])
    (hl : ∀ e ∈ es, ¬ LongKey e.1) (hout : out.toList = chunks.flatten) :
    read out = .ok (.table (textTable (es.map rereadEntry))) := by
  obtain ⟨ts, hts, htokens⟩ := tokens_of_entries h hne hl
  rw [← hout] at htokens
  obtain ⟨s, hs, hdoc⟩ := Survey.exists_document_textMapping (es.map rereadEntry)
  rw [read_of_node (ofText_of_entryTokens hts htokens), hs, Except.map, hdoc]

lemma read_of_longKey (h : List.Forall₂ EntryForm es chunks) (hl : ∃ e ∈ es, LongKey e.1)
    (hout : out.toList = chunks.flatten) : read out = .error .invalid := by
  obtain ⟨ts, hts, htokens⟩ := tokens_of_longKey h hl
  rw [← hout] at htokens
  rw [read, ofText_of_brokenTokens hts htokens]
  rfl

/-- A written table of texts can be read, with some texts changed, unless it has a long key. -/
lemma read_write (hne : es ≠ []) (h : write (.table (textEntries es)) = .ok out) :
    read out = if ∃ e ∈ es, LongKey e.1 then .error .invalid
      else .ok (.table (textTable ((sortedTexts es).map rereadEntry))) := by
  obtain ⟨chunks, hchunks, hout⟩ := exists_entries_of_write hne h
  split
  case isTrue hlong =>
    obtain ⟨e, he, hl⟩ := hlong
    exact read_of_longKey hchunks ⟨e, mem_sortedTexts.2 he, hl⟩ hout
  case isFalse hlong =>
    push Not at hlong
    exact read_of_entries hchunks (sortedTexts_ne_nil hne)
      (fun e he => hlong e (mem_sortedTexts.1 he)) hout

end NodeScript.Yaml
