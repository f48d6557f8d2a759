import Mathlib
import NodeScript.Proofs.Yaml.Spelling

/-!
# Scanning entries

The entries of a table of texts, as they are written one below the other, and the tokens that they
fall into. A key on the line of its value is found only if its colon is not too far away; all other
entries are read back key by key and value by value.
-/

namespace NodeScript.Yaml

open Cursor

/-! ### Where tokens begin -/

/-- A token begins at these characters, if they are not the end. -/
def TokenStart (r : List Char) : Prop :=
  ∀ x ∈ r.head?, isGapOrEnd x = false ∧ x ≠ '#' ∧ x ≠ '\ufeff'

lemma TokenStart.solid {r : List Char} (h : TokenStart r) : Solid r :=
  fun x hx => (h x hx).1

/-- Whether a mark that begins or ends a document begins at these characters. -/
def startsSeparator (r : List Char) : Bool :=
  (Cursor.start r).atSeparator

lemma atSeparator_eq {c : Cursor} {r : List Char} (hc : c.rest = r) :
    c.atSeparator = startsSeparator r := by
  simp only [startsSeparator, atSeparator, peekAt, Cursor.start, hc]

namespace ScalarForm

variable {w cs t : List Char} {plain : Bool}

lemma tokenStart (h : ScalarForm w cs plain) (t : List Char) : TokenStart (w ++ t) := by
  cases h with
  | plain hf =>
    obtain ⟨u, w', cs', hu, rfl, -⟩ := hf.exists_word
    obtain ⟨x, u, rfl⟩ := List.exists_cons_of_ne_nil hu.ne_nil
    rintro y ⟨⟩
    have hi := hu.isInline x List.mem_cons_self
    simp only [isInline, Bool.and_eq_true, bne_iff_ne] at hi
    exact ⟨hu.solid x List.mem_cons_self, by simpa using hu.head_ne, hi.2⟩
  | quoted double hf =>
    rintro y ⟨⟩
    cases double <;> simp [quoteMark, isGapOrEnd, isSpaceOrEnd, isBreakOrEnd, isBreak, endMark]

lemma length_pos (h : ScalarForm w cs plain) : 0 < w.length := by
  cases h with
  | plain hf =>
    obtain ⟨u, w', cs', hu, rfl, -⟩ := hf.exists_word
    have := List.length_pos_iff.2 hu.ne_nil
    simp only [List.length_append]
    omega
  | quoted double hf => simp

/-- No mark of a document begins where a scalar is followed by a colon. -/
lemma startsSeparator_eq (h : ScalarForm w cs plain) (t : List Char) :
    startsSeparator (w ++ ':' :: t) = false := by
  cases h with
  | plain hf hs hd hp =>
    have hdash : "---".toList.isPrefixOf (w ++ ':' :: t) = false := by
      rw [isPrefixOf_append (by simp), hd]
    have hdot : "...".toList.isPrefixOf (w ++ ':' :: t) = false := by
      rw [isPrefixOf_append (by simp), hp]
    simp only [startsSeparator, atSeparator, Cursor.start, hdash, hdot, Bool.or_self,
      Bool.false_and]
  | quoted double hf =>
    rw [startsSeparator, not_atSeparator rfl] <;> cases double <;> decide

end ScalarForm

namespace Scan

/-! ### States of a scan -/

variable {c : Cursor} {ts : List Token} {allowed opened plain : Bool} {ps : List (Nat × KeyPlace)}
  {w cs r : List Char}

/-- The scan at a place in a table that has been opened or not. -/
def inTable (c : Cursor) (ts : List Token) (allowed : Bool) (ps : List (Nat × KeyPlace))
    (opened : Bool) : Scan :=
  ⟨c, ts, 0, allowed, ps, if opened then 0 else -1, if opened then [-1] else []⟩

/-- The places of keys are on lines before the cursor, and no key is required there. -/
def Stale (ps : List (Nat × KeyPlace)) (c : Cursor) : Prop :=
  ∀ p ∈ ps, p.2.line < c.line ∧ p.2.required = false

lemma stale_nil : Stale [] c := by
  simp [Stale]

lemma dropStale_of_stale (h : Stale ps c) :
    (inTable c ts allowed ps opened).dropStale = .ok (inTable c ts allowed [] opened) := by
  have hline : ∀ p ∈ ps, p.2.line ≠ c.line := fun p hp => (h p hp).1.ne
  refine (if_neg ?_).trans (congrArg Except.ok ?_)
  · simp only [inTable, List.any_eq_true, Bool.and_eq_true, not_exists, not_and, Bool.not_eq_true]
    exact fun p hp _ => (h p hp).2
  · simp only [inTable, Scan.mk.injEq, List.filter_eq_nil_iff, true_and, and_true]
    intro p hp
    simp [hline p hp]

lemma unwind_inTable :
    (inTable c ts allowed ps opened).unwind (inTable c ts allowed ps opened).column =
      inTable c ts allowed ps opened := by
  cases opened <;> simp [unwind, inTable, inFlow, closeBlocks, column, Int.not_ofNat_neg]

lemma skipLines_of_spaces {s : Scan} {g : List Char} (hg : ∀ x ∈ g, x = ' ')
    (hc : s.cursor.rest = g ++ r) (hr : TokenStart r) (bound : Nat) :
    s.skipLines (bound + 1) = { s with cursor := s.cursor.advanceBy g.length } := by
  have hs : s.cursor.skipSpaces = s.cursor.advanceBy g.length := by
    refine congrArg Prod.snd (takeWhile_of_append hc (fun x hx => by simp [hg x hx]) fun x hx => ?_)
    simpa using (isGapOrEnd_eq_false_iff.1 (hr x hx).1).2.2.1
  have hp : (s.cursor.advanceBy g.length).peek = r.headD endMark := by simp [peek, hc]
  have hh : r.headD endMark ≠ '#' := by
    cases r with
    | nil => decide
    | cons x r => exact (hr x rfl).2.1
  simp only [skipLines, hs, hp, beq_iff_eq, hh, if_false, isBreak_headD hr.solid]
  rfl

lemma skipToToken_eq {s : Scan} (hp : s.cursor.peek ≠ '\ufeff') :
    s.skipToToken = s.skipLines (s.cursor.rest.length + 1) := by
  simp [skipToToken, hp]

lemma skipToToken_of_tokenStart {s : Scan} (hr : TokenStart s.cursor.rest) : s.skipToToken = s := by
  have hp : s.cursor.peek ≠ '\ufeff' := by
    unfold peek
    cases h : s.cursor.rest with
    | nil => decide
    | cons x r => exact (hr x (by rw [h]; rfl)).2.2
  rw [skipToToken_eq hp]
  exact skipLines_of_spaces (List.forall_mem_nil _) rfl hr _

lemma skipToToken_space {s : Scan} (hc : s.cursor.rest = ' ' :: r) (hr : TokenStart r) :
    s.skipToToken = { s with cursor := s.cursor.advance } := by
  rw [skipToToken_eq (by simp [peek, hc])]
  exact skipLines_of_spaces (g := [' ']) (by simp) hc hr _

lemma skipToToken_lineFeed (hc : c.rest = '\n' :: r) (hr : TokenStart r) :
    (inTable c ts allowed ps opened).skipToToken = inTable c.advance ts true ps opened := by
  have hs : c.skipSpaces = c :=
    congrArg Prod.snd (takeWhile_of_append (w := []) hc (by simp) (by simp))
  have hp : c.peek = '\n' := by simp [peek, hc]
  have hk : c.takeBreak.2 = c.advance := by rw [takeBreak_of_foldable hc rfl]
  have hrest : c.advance.rest = [] ++ r := by simp [hc]
  have hnext : (inTable c.advance ts true ps opened).skipLines (r.length + 1) = _ :=
    skipLines_of_spaces (List.forall_mem_nil _) hrest hr r.length
  have hl : c.rest.length = r.length + 1 := by simp [hc]
  have hn : isBreak '\n' = true := rfl
  rw [skipToToken_eq (by simp [inTable, hp])]
  simpa [skipLines, inTable, hs, hp, hk, hl, hn, inFlow, advanceBy] using hnext

/-! ### Tokens of entries -/

section Next

variable {s t : Scan} (h : s.skipToToken.dropStale = .ok t) (hu : t.unwind t.column = t)
include h hu

lemma next_key (hc : t.cursor.rest = '?' :: ' ' :: r) :
    s.next = t.takeKey.map fun s => (false, s) := by
  have hp : t.cursor.peek = '?' := by simp [peek, hc]
  have hn : isGapOrEnd (t.cursor.peekAt 1) = true := by
    simp only [peekAt, hc]
    rfl
  simp only [next, h, hu, bind, Except.bind, hp, hn, hc]
  simp
  rfl

lemma next_value (hc : t.cursor.rest = ':' :: ' ' :: r) :
    s.next = t.takeValue.map fun s => (false, s) := by
  have hp : t.cursor.peek = ':' := by simp [peek, hc]
  have hn : isGapOrEnd (t.cursor.peekAt 1) = true := by
    simp only [peekAt, hc]
    rfl
  simp only [next, h, hu, bind, Except.bind, hp, hn, hc]
  simp
  rfl

lemma next_end (hc : t.cursor.rest = []) : s.next = t.takeEnd.map fun s => (true, s) := by
  simp only [next, h, hu, bind, Except.bind, hc]
  rfl

lemma next_quoted {double : Bool} (hc : t.cursor.rest = quoteMark double :: r) :
    s.next = (t.takeAs Cursor.takeQuoted).map fun s => (false, s) := by
  have hp : t.cursor.peek = quoteMark double := by simp [peek, hc]
  simp only [next, h, hu, bind, Except.bind, hp, hc]
  cases double <;> simp [quoteMark] <;> rfl

/-- The scalar is told from other tokens by its first characters, and at the beginning of a line
from marks of documents. -/
lemma next_plain (hf : PlainForm w cs) (hs : startsMarked w = false) (hflow : t.flow = 0)
    (hc : t.cursor.rest = w ++ r)
    (hsep : t.cursor.column = 0 → t.cursor.atSeparator = false) :
    s.next = t.takePlain.map fun s => (false, s) := by
  obtain ⟨u, w', cs', hu', rfl, -⟩ := hf.exists_word
  obtain ⟨x, u, rfl⟩ := List.exists_cons_of_ne_nil hu'.ne_nil
  have hp : t.cursor.peek = x := by simp [peek, hc]
  have hgap : isGapOrEnd x = false := hu'.solid x List.mem_cons_self
  simp only [List.cons_append, startsMarked, Bool.or_eq_false_iff] at hs
  have hmark : x ≠ '#' ∧ x ≠ ',' ∧ x ≠ '[' ∧ x ≠ ']' ∧ x ≠ '{' ∧ x ≠ '}' ∧ x ≠ '&' ∧ x ≠ '*' ∧
      x ≠ '!' ∧ x ≠ '|' ∧ x ≠ '>' ∧ x ≠ '\'' ∧ x ≠ '"' ∧ x ≠ '%' ∧ x ≠ '@' ∧ x ≠ '\x60' := by
    simpa using hs.1
  -- A mark of a key, a value or an item needs a gap after it.
  have hnext : (x == '?' || x == ':' || x == '-') = true →
      isGapOrEnd (t.cursor.peekAt 1) = false := by
    intro hx
    have hg := hs.2
    rw [hx, Bool.and_true] at hg
    simp only [peekAt, hc]
    cases hv : u ++ w' with
    | nil =>
      rw [hv] at hg
      exact absurd hg (by decide)
    | cons y v => simpa [hv] using hg
  have hdoc : ∀ ch, (x == ch && t.cursor.column == 0 && t.cursor.atSeparator) = false := by
    intro ch
    by_cases h0 : t.cursor.column = 0
    · simp [hsep h0]
    · simp [h0]
  have hflow' : t.inFlow = false := by simp [inFlow, hflow]
  have hstart : t.startsPlain = true := by
    by_cases hx : (x == '?' || x == ':' || x == '-') = true
    · have hn := hnext hx
      simp only [Bool.or_eq_true, beq_iff_eq] at hx
      rcases hx with (rfl | rfl) | rfl <;> simp [startsPlain, hp, hn, hflow']
    · simp only [Bool.or_eq_true, beq_iff_eq, not_or] at hx
      simp [startsPlain, hp, hgap, hmark, hx]
  have hgapped {ch : Char} (hch : ch = '?' ∨ ch = ':' ∨ ch = '-') :
      (x == ch && isGapOrEnd (t.cursor.peekAt 1)) = false := by
    by_cases hx : x = ch
    · rw [hnext (by rcases hch with rfl | rfl | rfl <;> simp [hx]), Bool.and_false]
    · simp [hx]
  have hne : t.cursor.rest.isEmpty = false := by simp [hc]
  simp only [next, h, hu, bind, Except.bind, hp, hne, hdoc, hflow', hstart, Bool.false_or,
    hgapped (.inl rfl), hgapped (.inr (.inl rfl)), hgapped (.inr (.inr rfl))]
  simp [hmark]
  rfl

end Next

/-! ### Steps of a scan -/

/-- One more token leads from one place of a token to another, further on in the text. -/
def Moves (t t' : Scan) : Prop :=
  t'.cursor.rest.length < t.cursor.rest.length ∧
    ∀ s : Scan, s.skipToToken = t → ∃ s', s.next = .ok (false, s') ∧ s'.skipToToken = t'

/-- The place of a key at a cursor. -/
def placeAt (c : Cursor) (ts : List Token) (opened : Bool) : KeyPlace :=
  ⟨ts.length, opened && c.column == 0, c.index, c.line, c.column⟩

lemma savePlace_inTable :
    (inTable c ts allowed [] opened).savePlace = .ok
      (inTable c ts allowed (if allowed then [(0, placeAt c ts opened)] else []) opened) := by
  cases allowed with
  | false => rfl
  | true =>
    have hreq : ((if opened then (0 : Int) else -1) == (c.column : Int)) =
        (opened && c.column == 0) := by
      cases opened with
      | false => simp
      | true => simp [eq_comm]
    simp [savePlace, inTable, forgetPlace, placeAt, inFlow, column, hreq, bind, Except.bind, pure,
      Except.pure]

lemma takePlain_inTable {tok : Token} {ended : Bool} {c' : Cursor}
    (h : Cursor.takePlain false (if opened then 0 else -1) c = (tok, ended, c')) :
    (inTable c ts allowed [] opened).takePlain = .ok (inTable c' (ts ++ [tok]) ended
      (if allowed then [(0, placeAt c ts opened)] else []) opened) := by
  rw [takePlain, savePlace_inTable]
  simp only [inTable, inFlow, bind, Except.bind, bne_self_eq_false, h]
  rfl

lemma takeAs_inTable {take : Take Token} {tok : Token} {c' : Cursor} (h : take c = .ok (tok, c')) :
    (inTable c ts allowed [] opened).takeAs take = .ok (inTable c' (ts ++ [tok]) false
      (if allowed then [(0, placeAt c ts opened)] else []) opened) := by
  rw [takeAs, savePlace_inTable]
  simp only [inTable, bind, Except.bind, h]
  rfl

/-- A scalar at the end of a line is followed by what begins the next line. -/
lemma moves_scalar_lineFeed {ts' : List Token} (hf : ScalarForm w cs plain)
    (hc : c.rest = w ++ '\n' :: r) (hr : TokenStart r) (hsep : startsSeparator r = false)
    (hcol : 0 < c.column) (hps : Stale ps c)
    (hts : ts ++ [.scalar (String.ofList cs) plain] = ts') :
    Moves (inTable c ts allowed ps true)
      (inTable (c.advanceBy (w.length + 1)) ts' true
        (if allowed then [(0, placeAt c ts true)] else []) true) := by
  subst hts
  have hrest : (c.advanceBy (w.length + 1)).rest = r := by simp [hc]
  refine ⟨?_, fun s hs => ?_⟩
  · simp only [inTable, hrest, hc, List.length_append, List.length_cons]
    omega
  have hdrop := (congrArg dropStale hs).trans (dropStale_of_stale hps)
  cases hf with
  | plain hf hm =>
    have htake : Cursor.takePlain false (if true then 0 else -1) c = _ :=
      takePlain_lineFeed hf hc hr.solid (by rw [atSeparator_eq hrest, hsep])
    rw [next_plain hdrop unwind_inTable hf hm rfl hc fun h => absurd h hcol.ne',
      takePlain_inTable htake]
    exact ⟨_, rfl, skipToToken_of_tokenStart (by rwa [inTable, hrest])⟩
  | @quoted w cs double hf =>
    have hc' : c.rest = quoteMark double :: w ++ quoteMark double :: '\n' :: r := by simp [hc]
    have htake := hf.takeQuoted_eq rfl hc' (by simp)
    have hnext : (c.advanceBy (w.length + 2)).rest = '\n' :: r := by simp [hc]
    rw [next_quoted hdrop unwind_inTable (r := w ++ quoteMark double :: '\n' :: r) hc',
      takeAs_inTable htake]
    refine ⟨_, rfl, ?_⟩
    have hcur : (c.advanceBy (w.length + 2)).advance =
        c.advanceBy ((quoteMark double :: (w ++ [quoteMark double])).length + 1) := by
      rw [← advanceBy_one, ← advanceBy_add, List.length_cons, List.length_append]
      rfl
    rw [skipToToken_lineFeed hnext hr, hcur]

/-- A key on the line of its value is taken for a scalar, and its place is remembered. -/
lemma moves_key (hf : ScalarForm w cs plain) (hc : c.rest = w ++ ':' :: ' ' :: r)
    (hps : Stale ps c) :
    Moves (inTable c ts true ps opened)
      (inTable (c.advanceBy w.length) (ts ++ [.scalar (String.ofList cs) plain]) false
        [(0, placeAt c ts opened)] opened) := by
  have hrest : (c.advanceBy w.length).rest = ':' :: ' ' :: r := by simp [hc]
  have hstart : TokenStart (':' :: ' ' :: r) := by
    rintro x ⟨⟩
    decide
  refine ⟨?_, fun s hs => ?_⟩
  · have := hf.length_pos
    simp only [inTable, hrest, hc, List.length_append, List.length_cons]
    omega
  have hdrop := (congrArg dropStale hs).trans (dropStale_of_stale hps)
  have hsep : c.atSeparator = false := by rw [atSeparator_eq hc, hf.startsSeparator_eq]
  cases hf with
  | plain hf hm =>
    have htake : Cursor.takePlain false (if opened then 0 else -1) c = _ :=
      takePlain_colon hf hc (by cases opened <;> decide)
    rw [next_plain hdrop unwind_inTable hf hm rfl hc fun _ => hsep, takePlain_inTable htake]
    exact ⟨_, rfl, skipToToken_of_tokenStart (by rwa [inTable, hrest])⟩
  | @quoted w cs double hf =>
    have hc' : c.rest = quoteMark double :: w ++ quoteMark double :: ':' :: ' ' :: r := by simp [hc]
    have htake := hf.takeQuoted_eq rfl hc' (by simp)
    have hlen : (quoteMark double :: (w ++ [quoteMark double])).length = w.length + 2 := by simp
    rw [hlen] at hrest ⊢
    rw [next_quoted hdrop unwind_inTable (r := w ++ quoteMark double :: ':' :: ' ' :: r) hc',
      takeAs_inTable htake]
    exact ⟨_, rfl, skipToToken_of_tokenStart (by rwa [inTable, hrest])⟩

/-- The tokens of a key that begins a table, or one more key of it. -/
def keyMarks (opened : Bool) : List Token :=
  if opened then [.key] else [.blockMappingStart, .key]

/-- At the colon of a key that is near enough, the marks of the key are put in before it. -/
lemma moves_colon {d : Cursor} {tok : Token} (hc : c.rest = ':' :: ' ' :: r) (hr : TokenStart r)
    (hline : d.line = c.line) (hcol : d.column = 0) (hnear : c.index - d.index ≤ 1024) :
    Moves (inTable c (ts ++ [tok]) false [(0, placeAt d ts opened)] opened)
      (inTable (c.advanceBy 2) (ts ++ keyMarks opened ++ [tok, .value]) false [] true) := by
  refine ⟨by simp [inTable, hc], fun s hs => ?_⟩
  have hdrop : s.skipToToken.dropStale =
      .ok (inTable c (ts ++ [tok]) false [(0, placeAt d ts opened)] opened) := by
    rw [hs]
    simp [dropStale, inTable, placeAt, hline, hnear]
  have htake : (inTable c (ts ++ [tok]) false [(0, placeAt d ts opened)] opened).takeValue =
      .ok (inTable c.advance (ts ++ keyMarks opened ++ [tok, .value]) false [] true) := by
    cases opened <;>
      simp [takeValue, inTable, placeAt, insertKey, inFlow, openBlock, emit, skip, hcol, keyMarks,
        advanceBy]
  rw [next_value hdrop unwind_inTable hc, htake]
  refine ⟨_, rfl, ?_⟩
  exact skipToToken_space (by simp [inTable, hc]) hr

/-- At a colon that is too far from its key the scan fails. -/
lemma next_colon_far {d : Cursor} {tok : Token} {s : Scan} (hc : c.rest = ':' :: ' ' :: r)
    (hcol : d.column = 0) (hfar : 1024 < c.index - d.index)
    (hs : s.skipToToken = inTable c (ts ++ [tok]) false [(0, placeAt d ts opened)] opened) :
    s.next = .error .invalid := by
  cases opened with
  | true =>
    have hdrop : s.skipToToken.dropStale = .error .invalid := by
      rw [hs]
      simp [dropStale, inTable, placeAt, hcol, hfar]
    rw [next, hdrop]
    rfl
  | false =>
    have hdrop : s.skipToToken.dropStale = .ok (inTable c (ts ++ [tok]) false [] false) := by
      rw [hs]
      simp [dropStale, inTable, placeAt, hfar]
    rw [next_value hdrop unwind_inTable hc]
    rfl

/-- The mark of a key that stands on lines of its own. -/
lemma moves_mark (hc : c.rest = '?' :: ' ' :: r) (hr : TokenStart r) (hcol : c.column = 0)
    (hps : Stale ps c) :
    Moves (inTable c ts true ps opened)
      (inTable (c.advanceBy 2) (ts ++ keyMarks opened) true [] true) := by
  refine ⟨by simp [inTable, hc], fun s hs => ?_⟩
  have hdrop := (congrArg dropStale hs).trans (dropStale_of_stale hps)
  have htake : (inTable c ts true [] opened).takeKey =
      .ok (inTable c.advance (ts ++ keyMarks opened) true [] true) := by
    cases opened <;>
      simp [takeKey, openAtCursor, openBlock, inTable, inFlow, column, hcol, forgetPlace, emit,
        skip, keyMarks, advanceBy, bind, Except.bind, pure, Except.pure]
  rw [next_key hdrop unwind_inTable hc, htake]
  exact ⟨_, rfl, skipToToken_space (by simp [inTable, hc]) hr⟩

/-- The mark of a value whose key stands on lines of its own. -/
lemma moves_value (hc : c.rest = ':' :: ' ' :: r) (hr : TokenStart r) (hcol : c.column = 0)
    (hps : Stale ps c) :
    Moves (inTable c ts true ps true) (inTable (c.advanceBy 2) (ts ++ [.value]) true [] true) := by
  refine ⟨by simp [inTable, hc], fun s hs => ?_⟩
  have hdrop := (congrArg dropStale hs).trans (dropStale_of_stale hps)
  have htake : (inTable c ts true [] true).takeValue =
      .ok (inTable c.advance (ts ++ [.value]) true [] true) := by
    simp [takeValue, openAtCursor, openBlock, inTable, inFlow, column, hcol, emit, skip, advanceBy,
      bind, Except.bind, pure, Except.pure]
  rw [next_value hdrop unwind_inTable hc, htake]
  exact ⟨_, rfl, skipToToken_space (by simp [inTable, hc]) hr⟩

/-- The end of a table of entries. -/
lemma next_end_inTable {s : Scan} (hc : c.rest = []) (hps : Stale ps c)
    (hs : s.skipToToken = inTable c ts true ps true) :
    ∃ s', s.next = .ok (true, s') ∧ s'.tokens = ts ++ [.blockEnd, .streamEnd] := by
  have hdrop := (congrArg dropStale hs).trans (dropStale_of_stale hps)
  rw [next_end hdrop unwind_inTable hc]
  exact ⟨_, rfl, by simp [inTable, unwind, inFlow, closeBlocks, emit]⟩

end Scan

/-! ### Entries -/

/-- A token that stands for a text. -/
def IsTokenOf (s : String) (t : Token) : Prop :=
  ∃ plain, t = .scalar s plain ∧ (plain = true → ScalarKind.ofPlain s = .text)

/-- What is written for an entry, up to the beginning of the next line. -/
inductive EntryForm : String × String → List Char → Prop
  | inline {k v : String} {wk wv : List Char} {pk pv : Bool} (hi : (Doc.text k).isInlineKey = true)
      (hk : TextSpelling true k wk pk) (hv : TextSpelling false v wv pv) :
      EntryForm (k, v) (wk ++ ':' :: ' ' :: (wv ++ ['\n']))
  | marked {k v : String} {wk wv : List Char} {pk pv : Bool} (hi : (Doc.text k).isInlineKey = false)
      (hk : TextSpelling false k wk pk) (hv : TextSpelling false v wv pv) :
      EntryForm (k, v) ('?' :: ' ' :: (wk ++ '\n' :: ':' :: ' ' :: (wv ++ ['\n'])))

/-- A key on the line of its value whose spelling is longer than a scan looks back. -/
def LongKey (k : String) : Prop :=
  (Doc.text k).isInlineKey = true ∧ 1024 < ((Style.ofText true k).spell k.toList).length

instance (k : String) : Decidable (LongKey k) :=
  inferInstanceAs (Decidable (_ ∧ _))

lemma TextSpelling.isTokenOf {isKey plain : Bool} {s : String} {w : List Char}
    (h : TextSpelling isKey s w plain) :
    IsTokenOf (reread s) (.scalar (String.ofList (reread s).toList) plain) :=
  ⟨plain, by rw [String.ofList_toList], h.kind⟩

lemma not_foldable_of_isInlineKey {k : String} (h : (Doc.text k).isInlineKey = true) :
    k.toList.any isFoldable = false := by
  simp only [Doc.isInlineKey, Bool.and_eq_true, Bool.not_eq_true'] at h
  exact h.2

namespace EntryForm

variable {e : String × String} {chunk : List Char}

lemma tokenStart (h : EntryForm e chunk) (r : List Char) : TokenStart (chunk ++ r) := by
  cases h with
  | inline hi hk hv =>
    rw [List.append_assoc]
    exact hk.form.tokenStart _
  | marked hi hk hv =>
    rintro x ⟨⟩
    decide

lemma startsSeparator_eq (h : EntryForm e chunk) (r : List Char) :
    startsSeparator (chunk ++ r) = false := by
  cases h with
  | inline hi hk hv =>
    rw [List.append_assoc]
    exact hk.form.startsSeparator_eq _
  | marked hi hk hv =>
    rw [startsSeparator, not_atSeparator rfl] <;> decide

lemma readable (h : EntryForm e chunk) : ∀ x ∈ chunk, isReadable x = true := by
  have hcolon : isReadable ':' = true := rfl
  have hspace : isReadable ' ' = true := rfl
  have hline : isReadable '\n' = true := rfl
  have hmark : isReadable '?' = true := rfl
  cases h with
  | inline hi hk hv =>
    intro x hx
    simp only [List.mem_append, List.mem_cons, List.not_mem_nil, or_false] at hx
    rcases hx with hx | rfl | rfl | hx | rfl
    · exact hk.readable x hx
    · exact hcolon
    · exact hspace
    · exact hv.readable x hx
    · exact hline
  | marked hi hk hv =>
    intro x hx
    simp only [List.mem_append, List.mem_cons, List.not_mem_nil, or_false] at hx
    rcases hx with rfl | rfl | hx | rfl | rfl | rfl | hx | rfl
    · exact hmark
    · exact hspace
    · exact hk.readable x hx
    · exact hline
    · exact hcolon
    · exact hspace
    · exact hv.readable x hx
    · exact hline

end EntryForm

lemma tokenStart_flatten {es : List (String × String)} {chunks : List (List Char)}
    (h : List.Forall₂ EntryForm es chunks) : TokenStart chunks.flatten := by
  cases h with
  | nil => simp [TokenStart]
  | cons he hes => exact he.tokenStart _

lemma startsSeparator_flatten {es : List (String × String)} {chunks : List (List Char)}
    (h : List.Forall₂ EntryForm es chunks) : startsSeparator chunks.flatten = false := by
  cases h with
  | nil => rfl
  | cons he hes => exact he.startsSeparator_eq _

/-- The tokens of some entries. -/
inductive EntryTokens : List (String × String) → List Token → Prop
  | nil : EntryTokens [] []
  | cons {k v : String} {es : List (String × String)} {kt vt : Token} {ts : List Token}
      (hk : IsTokenOf k kt) (hv : IsTokenOf v vt) (hes : EntryTokens es ts) :
      EntryTokens ((k, v) :: es) (.key :: kt :: .value :: vt :: ts)

/-- An entry as it is read back. -/
def rereadEntry (e : String × String) : String × String :=
  (reread e.1, reread e.2)

/-- Tokens after which a scan has failed at the colon of a key. -/
inductive BrokenTokens : List Token → Prop
  | first (text : String) (plain : Bool) : BrokenTokens [.scalar text plain]
  | later {es : List (String × String)} {ts : List Token} (hts : EntryTokens es ts) (text : String)
      (plain : Bool) : BrokenTokens (.blockMappingStart :: ts ++ [.scalar text plain])

namespace Scan

variable {c : Cursor} {ts : List Token} {opened : Bool} {ps : List (Nat × KeyPlace)}
  {chunk w r : List Char} {e : String × String}

/-- Going over what ends a line. -/
lemma position_of_lineFeed (hc : c.rest = w ++ '\n' :: r) :
    (c.advanceBy (w.length + 1)).rest = r ∧ (c.advanceBy (w.length + 1)).column = 0 ∧
      c.line < (c.advanceBy (w.length + 1)).line := by
  have hrest : (c.advanceBy w.length).rest = '\n' :: r := by simp [hc]
  rw [advanceBy_add, advanceBy_one, advance_lineFeed hrest]
  exact ⟨rfl, rfl, Nat.lt_succ_of_le (line_le_advanceBy _ _)⟩

lemma stale_placeAt {allowed : Bool} (hc : c.rest = w ++ '\n' :: r) (hcol : 0 < c.column) :
    Stale (if allowed then [(0, placeAt c ts opened)] else []) (c.advanceBy (w.length + 1)) := by
  intro p hp
  cases allowed with
  | false => simp at hp
  | true =>
    obtain rfl : p = _ := by simpa using hp
    exact ⟨(position_of_lineFeed hc).2.2, by simp [placeAt, hcol.ne']⟩

lemma column_advanceBy_two {x y : Char} (hc : c.rest = x :: y :: r) (hx : isInline x = true)
    (hy : isInline y = true) : (c.advanceBy 2).column = c.column + 2 := by
  have := advanceBy_inline (w := [x, y]) hc (by simp [hx, hy])
  exact congrArg Cursor.column this

/-- Going over a key that stands on one line. -/
lemma position_of_inline {k : String} {wk : List Char} {pk : Bool}
    (hi : (Doc.text k).isInlineKey = true) (hk : TextSpelling true k wk pk)
    (hc : c.rest = wk ++ r) :
    (c.advanceBy wk.length).rest = r ∧ (c.advanceBy wk.length).line = c.line ∧
      (c.advanceBy wk.length).index = c.index + wk.length := by
  have hinline : ∀ x ∈ wk, isInline x = true := by
    rw [hk.exact rfl]
    exact isInline_spell (not_foldable_of_isInlineKey hi)
  rw [advanceBy_inline hc hinline]
  exact ⟨rfl, rfl, rfl⟩

/-- A key on the line of its value, and the value. -/
lemma moves_entry (ts : List Token) (opened : Bool) (he : EntryForm e chunk)
    (hl : ¬ LongKey e.1) (hc : c.rest = chunk ++ r)
    (hr : TokenStart r) (hsep : startsSeparator r = false) (hcol : c.column = 0)
    (hps : Stale ps c) :
    ∃ c' ps' kt vt, Relation.TransGen Moves (inTable c ts true ps opened)
        (inTable c' (ts ++ keyMarks opened ++ [kt, .value, vt]) true ps' true) ∧
      IsTokenOf (reread e.1) kt ∧ IsTokenOf (reread e.2) vt ∧
      c'.rest = r ∧ c'.column = 0 ∧ Stale ps' c' := by
  cases he with
  | @inline k v wk wv pk pv hi hk hv =>
    have hnear : wk.length ≤ 1024 := by
      rw [hk.exact rfl]
      exact not_lt.1 fun h => hl ⟨hi, h⟩
    have hc₀ : c.rest = wk ++ ':' :: ' ' :: (wv ++ '\n' :: r) := by simp [hc]
    obtain ⟨hc₁, hline₁, hindex₁⟩ := position_of_inline hi hk hc₀
    have hc₂ : ((c.advanceBy wk.length).advanceBy 2).rest = wv ++ '\n' :: r := by simp [hc₀]
    have hcol₂ : 0 < ((c.advanceBy wk.length).advanceBy 2).column := by
      rw [column_advanceBy_two hc₁ (by decide) (by decide)]
      omega
    obtain ⟨hc₃, hcol₃, -⟩ := position_of_lineFeed hc₂
    exact ⟨_, _, _, _, ((Relation.TransGen.single (moves_key hk.form hc₀ hps)).tail
      (moves_colon hc₁ (hv.form.tokenStart _) hline₁.symm hcol (by omega))).tail
      (moves_scalar_lineFeed hv.form hc₂ hr hsep hcol₂ stale_nil (by simp)),
      hk.isTokenOf, hv.isTokenOf, hc₃, hcol₃, stale_nil⟩
  | @marked k v wk wv pk pv hi hk hv =>
    have hc₀ : c.rest = '?' :: ' ' :: (wk ++ '\n' :: ':' :: ' ' :: (wv ++ '\n' :: r)) := by
      simp [hc]
    have hc₁ : (c.advanceBy 2).rest = wk ++ '\n' :: ':' :: ' ' :: (wv ++ '\n' :: r) := by
      simp [hc₀]
    have hcol₁ : 0 < (c.advanceBy 2).column := by
      rw [column_advanceBy_two hc₀ (by decide) (by decide)]
      omega
    obtain ⟨hc₂, hcol₂, -⟩ := position_of_lineFeed hc₁
    have hcolon : TokenStart (':' :: ' ' :: (wv ++ '\n' :: r)) := by
      rintro x ⟨⟩
      decide
    have hsep₂ : startsSeparator (':' :: ' ' :: (wv ++ '\n' :: r)) = false := by
      rw [startsSeparator, not_atSeparator rfl] <;> decide
    have hc₃ :
        (((c.advanceBy 2).advanceBy (wk.length + 1)).advanceBy 2).rest = wv ++ '\n' :: r := by
      rw [advanceBy_rest, hc₂]
      rfl
    have hcol₃ : 0 < (((c.advanceBy 2).advanceBy (wk.length + 1)).advanceBy 2).column := by
      rw [column_advanceBy_two hc₂ (by decide) (by decide)]
      omega
    obtain ⟨hc₄, hcol₄, -⟩ := position_of_lineFeed hc₃
    exact ⟨_, _, _, _, (((Relation.TransGen.single
      (moves_mark hc₀ (hk.form.tokenStart _) hcol hps)).tail
      (moves_scalar_lineFeed hk.form hc₁ hcolon hsep₂ hcol₁ stale_nil rfl)).tail
      (moves_value hc₂ (hv.form.tokenStart _) hcol₂ (stale_placeAt hc₁ hcol₁))).tail
      (moves_scalar_lineFeed hv.form hc₃ hr hsep hcol₃ stale_nil (by simp)),
      hk.isTokenOf, hv.isTokenOf, hc₄, hcol₄, stale_placeAt hc₃ hcol₃⟩

/-- A key whose colon is too far away is scanned, and then the scan fails. -/
lemma moves_far (ts : List Token) (opened : Bool) (he : EntryForm e chunk) (hl : LongKey e.1)
    (hc : c.rest = chunk ++ r)
    (hcol : c.column = 0) (hps : Stale ps c) :
    ∃ t text plain, Moves (inTable c ts true ps opened) t ∧ t.tokens = ts ++ [.scalar text plain] ∧
      ∀ s : Scan, s.skipToToken = t → s.next = .error .invalid := by
  cases he with
  | @inline k v wk wv pk pv hi hk hv =>
    have hfar : 1024 < wk.length := by
      rw [hk.exact rfl]
      exact hl.2
    have hc₀ : c.rest = wk ++ ':' :: ' ' :: (wv ++ '\n' :: r) := by simp [hc]
    obtain ⟨hc₁, -, hindex₁⟩ := position_of_inline hi hk hc₀
    exact ⟨_, _, _, moves_key hk.form hc₀ hps, rfl,
      fun s hs => next_colon_far hc₁ hcol (by omega) hs⟩
  | marked hi hk hv => exact absurd (hl.1.symm.trans hi) (by simp)

/-- The entries of an open table are scanned one after the other. -/
lemma moves_entries {es : List (String × String)} {chunks : List (List Char)}
    (h : List.Forall₂ EntryForm es chunks) (hl : ∀ e ∈ es, ¬ LongKey e.1)
    (hc : c.rest = chunks.flatten) (hcol : c.column = 0) (hps : Stale ps c) :
    ∃ c' ps' ts', Relation.ReflTransGen Moves (inTable c ts true ps true)
        (inTable c' (ts ++ ts') true ps' true) ∧
      EntryTokens (es.map rereadEntry) ts' ∧ c'.rest = [] ∧ Stale ps' c' := by
  induction h generalizing c ts ps with
  | nil => exact ⟨c, ps, [], by simpa using .refl, .nil, hc, hps⟩
  | @cons e chunk es chunks he hes ih =>
    have ⟨hl, hls⟩ := List.forall_mem_cons.1 hl
    obtain ⟨c₁, ps₁, kt, vt, hmoves, hkt, hvt, hc₁, hcol₁, hps₁⟩ := moves_entry ts true he
      hl hc (tokenStart_flatten hes) (startsSeparator_flatten hes) hcol hps
    obtain ⟨c₂, ps₂, ts', hmoves', hts', hc₂, hps₂⟩ := ih hls hc₁ hcol₁ hps₁
    refine ⟨c₂, ps₂, .key :: kt :: .value :: vt :: ts', ?_, .cons hkt hvt hts', hc₂, hps₂⟩
    have := hmoves.to_reflTransGen.trans hmoves'
    simpa [keyMarks] using this

/-- A scan of the entries of an open table fails at the first key that is too long. -/
lemma moves_broken {es : List (String × String)} {chunks : List (List Char)}
    (h : List.Forall₂ EntryForm es chunks) (hl : ∃ e ∈ es, LongKey e.1)
    (hc : c.rest = chunks.flatten) (hcol : c.column = 0) (hps : Stale ps c) :
    ∃ t es' ts' text plain, Relation.ReflTransGen Moves (inTable c ts true ps true) t ∧
      EntryTokens es' ts' ∧ t.tokens = ts ++ ts' ++ [.scalar text plain] ∧
      ∀ s : Scan, s.skipToToken = t → s.next = .error .invalid := by
  induction h generalizing c ts ps with
  | nil => simp at hl
  | @cons e chunk es chunks he hes ih =>
    by_cases hlong : LongKey e.1
    · obtain ⟨t, text, plain, hmoves, htoks, hfail⟩ := moves_far ts true he hlong hc hcol hps
      exact ⟨t, [], [], text, plain, .single hmoves, .nil, by simp [htoks], hfail⟩
    · have hls : ∃ e ∈ es, LongKey e.1 := by simpa [hlong] using hl
      obtain ⟨c₁, ps₁, kt, vt, hmoves, hkt, hvt, hc₁, hcol₁, hps₁⟩ := moves_entry ts true he
        hlong hc (tokenStart_flatten hes) (startsSeparator_flatten hes) hcol hps
      obtain ⟨t, es', ts', text, plain, hmoves', hts', htoks, hfail⟩ := ih hls hc₁ hcol₁ hps₁
      refine ⟨t, _, .key :: kt :: .value :: vt :: ts', text, plain,
        hmoves.to_reflTransGen.trans hmoves', .cons hkt hvt hts', ?_, hfail⟩
      simp [htoks, keyMarks]

/-! ### Whole scans -/

lemma tokens_skipToToken (s : Scan) : s.skipToToken.tokens = s.tokens := by
  have lines : ∀ (bound : Nat) (s : Scan), (s.skipLines bound).tokens = s.tokens := by
    intro bound
    induction bound with
    | zero => exact fun s => rfl
    | succ bound ih =>
      intro s
      unfold skipLines
      dsimp only
      split_ifs
      all_goals first | rw [ih] | rfl
  unfold skipToToken
  dsimp only
  rw [lines]
  split_ifs <;> rfl

attribute [local irreducible] Scan.next in
lemma all_succ (bound : Nat) (s : Scan) :
    all (bound + 1) s = match s.next with
      | .error stop => (s.tokens, some stop)
      | .ok (true, s) => (s.tokens, none)
      | .ok (false, s) => all bound s := by
  rfl

/-- The bound on the number of tokens is as good as none. -/
lemma all_of_moves {t t' : Scan} (h : Relation.ReflTransGen Moves t t') :
    ∀ (s : Scan) (bound : Nat), s.skipToToken = t → t.cursor.rest.length < bound →
      ∃ s' bound', s'.skipToToken = t' ∧ t'.cursor.rest.length < bound' ∧
        all bound s = all bound' s' := by
  induction h using Relation.ReflTransGen.head_induction_on with
  | refl => exact fun s bound hs hb => ⟨s, bound, hs, hb, rfl⟩
  | head hstep _ ih =>
    intro s bound hs hb
    obtain ⟨bound, rfl⟩ := Nat.exists_eq_add_of_lt (Nat.zero_lt_of_lt hb)
    obtain ⟨hlt, hnext⟩ := hstep
    obtain ⟨s₁, hs₁, hskip⟩ := hnext s hs
    obtain ⟨s', bound', hs', hb', he⟩ := ih s₁ (0 + bound) hskip (by omega)
    refine ⟨s', bound', hs', hb', Eq.trans ?_ he⟩
    simp only [all_succ, hs₁]

end Scan

open Scan

variable {es : List (String × String)} {chunks : List (List Char)}

lemma readable_flatten (h : List.Forall₂ EntryForm es chunks) :
    ∀ x ∈ chunks.flatten, isReadable x = true := by
  induction h with
  | nil => simp
  | cons he _ ih => exact List.forall_mem_append.2 ⟨he.readable, ih⟩

/-- A text is scanned from its beginning to where a scan of it ends. -/
lemma tokens_of_moves {t : Scan} (h : List.Forall₂ EntryForm es chunks)
    (hm : Relation.ReflTransGen Moves
      (inTable (Cursor.start chunks.flatten) [] true [] false) t) :
    ∃ s bound, s.skipToToken = t ∧ tokens chunks.flatten = Scan.all (bound + 1) s := by
  have hstart : (Scan.start chunks.flatten).skipToToken =
      inTable (Cursor.start chunks.flatten) [] true [] false :=
    skipToToken_of_tokenStart (tokenStart_flatten h)
  obtain ⟨s, bound, hs, hb, he⟩ := all_of_moves hm _ (chunks.flatten.length + 1) hstart
    (Nat.lt_succ_self _)
  obtain ⟨bound, rfl⟩ := Nat.exists_eq_add_of_lt (Nat.zero_lt_of_lt hb)
  refine ⟨s, 0 + bound, hs, Eq.trans (if_pos ?_) he⟩
  exact List.all_eq_true.2 (readable_flatten h)

/-- The tokens of a table of texts. -/
lemma tokens_of_entries (h : List.Forall₂ EntryForm es chunks) (hne : es ≠ [])
    (hl : ∀ e ∈ es, ¬ LongKey e.1) :
    ∃ ts, EntryTokens (es.map rereadEntry) ts ∧
      tokens chunks.flatten = (.blockMappingStart :: ts ++ [.blockEnd, .streamEnd], none) := by
  have h' := h
  cases h with
  | nil => contradiction
  | @cons e chunk es chunks he hes =>
    have ⟨hl, hls⟩ := List.forall_mem_cons.1 hl
    obtain ⟨c₁, ps₁, kt, vt, hmoves, hkt, hvt, hc₁, hcol₁, hps₁⟩ := moves_entry [] false
      (c := Cursor.start (chunk :: chunks).flatten) he hl rfl
      (tokenStart_flatten hes) (startsSeparator_flatten hes) rfl stale_nil
    obtain ⟨c₂, ps₂, ts, hmoves', hts, hc₂, hps₂⟩ := moves_entries hes hls hc₁ hcol₁ hps₁
    obtain ⟨s, bound, hs, htoks⟩ := tokens_of_moves h' (hmoves.to_reflTransGen.trans hmoves')
    obtain ⟨s', hnext, hs'⟩ := next_end_inTable hc₂ hps₂ hs
    refine ⟨_, .cons hkt hvt hts, htoks.trans ?_⟩
    simp only [all_succ, hnext, hs']
    simp [keyMarks]

/-- The tokens of a table of texts with a key that is too long. -/
lemma tokens_of_longKey (h : List.Forall₂ EntryForm es chunks) (hl : ∃ e ∈ es, LongKey e.1) :
    ∃ ts, BrokenTokens ts ∧ tokens chunks.flatten = (ts, some .invalid) := by
  have broken {t : Scan} {ts : List Token} (hm : Relation.ReflTransGen Moves
      (inTable (Cursor.start chunks.flatten) [] true [] false) t) (htoks : t.tokens = ts)
      (hfail : ∀ s : Scan, s.skipToToken = t → s.next = .error .invalid) :
      tokens chunks.flatten = (ts, some .invalid) := by
    obtain ⟨s, bound, hs, he⟩ := tokens_of_moves h hm
    rw [he, ← htoks, ← hs, tokens_skipToToken]
    simp only [all_succ, hfail s hs]
  cases h with
  | nil => simp at hl
  | @cons e chunk es chunks he hes =>
    by_cases hlong : LongKey e.1
    · obtain ⟨t, text, plain, hmoves, htoks, hfail⟩ := moves_far [] false
        (c := Cursor.start (chunk :: chunks).flatten) he hlong rfl rfl stale_nil
      exact ⟨_, .first text plain, broken (.single hmoves) htoks hfail⟩
    · have hls : ∃ e ∈ es, LongKey e.1 := by simpa [hlong] using hl
      obtain ⟨c₁, ps₁, kt, vt, hmoves, hkt, hvt, hc₁, hcol₁, hps₁⟩ := moves_entry [] false
        (c := Cursor.start (chunk :: chunks).flatten) he hlong rfl
        (tokenStart_flatten hes) (startsSeparator_flatten hes) rfl stale_nil
      obtain ⟨t, es', ts', text, plain, hmoves', hts', htoks, hfail⟩ :=
        moves_broken hes hls hc₁ hcol₁ hps₁
      refine ⟨_, .later (.cons hkt hvt hts') text plain,
        broken (hmoves.to_reflTransGen.trans hmoves') ?_ hfail⟩
      simp [htoks, keyMarks]

end NodeScript.Yaml
