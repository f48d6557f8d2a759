import Mathlib
import NodeScript.Yaml.Scan

/-!
# Reading scalars

The ways to spell a scalar, as relations between the characters of a text and what they are read as,
and that the readers of plain and quoted scalars follow them. A spelling may be folded at any place
where folding is undone by reading; where lines are folded is not the matter of this module.
-/

namespace NodeScript.Yaml

/-! ### Positions -/

/-- Whether going over a character takes one column. -/
def isInline (c : Char) : Bool :=
  !isBreak c && c != '\ufeff'

namespace Cursor

@[simp] lemma advance_rest (c : Cursor) : c.advance.rest = c.rest.tail := by
  unfold advance
  split
  · simp [*]
  · split_ifs <;> simp [*]

@[simp] lemma advanceBy_rest (n : Nat) (c : Cursor) : (c.advanceBy n).rest = c.rest.drop n := by
  induction n generalizing c with
  | zero => rfl
  | succ n ih => simp [advanceBy, ih]

lemma advanceBy_one (c : Cursor) : c.advanceBy 1 = c.advance := rfl

lemma advanceBy_add (m n : Nat) (c : Cursor) :
    c.advanceBy (m + n) = (c.advanceBy m).advanceBy n := by
  induction m generalizing c with
  | zero => simp [advanceBy]
  | succ m ih => rw [Nat.succ_add, advanceBy, ih, advanceBy]

lemma advanceBy_append (v w : List Char) (c : Cursor) :
    c.advanceBy ((v ++ w).length + 1) = (c.advanceBy v.length).advanceBy (w.length + 1) := by
  rw [← advanceBy_add, List.length_append, Nat.add_assoc]

lemma line_le_advanceBy (n : Nat) (c : Cursor) : c.line ≤ (c.advanceBy n).line := by
  have step (c : Cursor) : c.line ≤ c.advance.line := by
    unfold advance
    split
    · exact le_rfl
    · split_ifs <;> simp
  induction n generalizing c with
  | zero => exact le_rfl
  | succ n ih => exact (step c).trans (ih c.advance)

lemma advance_lineFeed {c : Cursor} {t : List Char} (h : c.rest = '\n' :: t) :
    c.advance = ⟨t, c.index + 1, c.line + 1, 0⟩ := by
  simp [advance, h, isBreak]

lemma advanceBy_inline {c : Cursor} {w t : List Char} (h : c.rest = w ++ t)
    (hw : ∀ x ∈ w, isInline x = true) :
    c.advanceBy w.length = ⟨t, c.index + w.length, c.line, c.column + w.length⟩ := by
  induction w generalizing c with
  | nil =>
    obtain ⟨rest, index, line, column⟩ := c
    simp_all [advanceBy]
  | cons x w ih =>
    have hx := hw x List.mem_cons_self
    simp only [isInline, Bool.and_eq_true, Bool.not_eq_true', bne_iff_ne] at hx
    have hc : c.advance = ⟨w ++ t, c.index + 1, c.line, c.column + 1⟩ := by
      simp [advance, h, hx.1, hx.2]
    rw [List.length_cons, advanceBy, hc, ih rfl fun y hy => hw y (List.mem_cons_of_mem _ hy)]
    simp only [Cursor.mk.injEq, true_and]
    omega

lemma takeWhile_of_append {c : Cursor} {p : Char → Bool} {w t : List Char} (h : c.rest = w ++ t)
    (hw : ∀ x ∈ w, p x = true) (ht : ∀ x ∈ t.head?, p x = false) :
    c.takeWhile p = (w, c.advanceBy w.length) := by
  have hr : c.rest.takeWhile p = w := by
    rw [h, List.takeWhile_append_of_pos hw]
    cases t with
    | nil => simp
    | cons x t => simp [ht x (by simp)]
  simp only [Cursor.takeWhile, hr]

end Cursor

/-! ### Characters -/

/-- No gap begins at these characters. -/
def Solid (w : List Char) : Prop :=
  ∀ c ∈ w.head?, isGapOrEnd c = false

/-- What a line break is read as. -/
def breakText (c : Char) : List Char :=
  if c == '\u2028' || c == '\u2029' then [c] else ['\n']

lemma isGapOrEnd_eq_false_iff {c : Char} :
    isGapOrEnd c = false ↔ isBreak c = false ∧ c ≠ endMark ∧ c ≠ ' ' ∧ c ≠ '\t' := by
  simp [isGapOrEnd, isSpaceOrEnd, isBreakOrEnd, and_assoc]

lemma isBreak_of_isFoldable {c : Char} (h : isFoldable c = true) : isBreak c = true := by
  simp only [isFoldable, isBreak, Bool.or_eq_true, beq_iff_eq] at h ⊢
  tauto

lemma isBreak_headD {t : List Char} (ht : Solid t) : isBreak (t.headD endMark) = false := by
  cases t with
  | nil => rfl
  | cons x t => exact (isGapOrEnd_eq_false_iff.1 (ht x rfl)).1

lemma solid_append {w t : List Char} (hw : Solid w) (ht : Solid t) : Solid (w ++ t) := by
  cases w with
  | nil => exact ht
  | cons x w => exact hw

namespace Cursor

variable {double : Bool} {quote : Char} {c c' next : Cursor} {w cs t p : List Char}

lemma takeBreak_of_foldable {b : Char} (h : c.rest = b :: t) (hb : isFoldable b = true) :
    c.takeBreak = (breakText b, c.advance) := by
  simp only [isFoldable, Bool.or_eq_true, beq_iff_eq] at hb
  unfold takeBreak
  rw [h]
  rcases hb with ((rfl | rfl) | rfl) | rfl <;> rfl

lemma not_atSeparator {x : Char} (h : c.rest = x :: t) (hd : x ≠ '-') (hp : x ≠ '.') :
    c.atSeparator = false := by
  simp [atSeparator, h, hd.symm, hp.symm]

/-! ### Gaps in quoted scalars -/

lemma takeWhile_blank_of_solid {g : List Char} (hg : ∀ x ∈ g, x = ' ') (h : c.rest = g ++ t)
    (ht : Solid t) :
    c.takeWhile (fun ch => ch == ' ' || ch == '\t') = (g, c.advanceBy g.length) := by
  refine takeWhile_of_append h (fun x hx => by simp [hg x hx]) fun x hx => ?_
  have hx := isGapOrEnd_eq_false_iff.1 (ht x hx)
  simp [hx.2.2.1, hx.2.2.2]

lemma takeWhile_blank_of_foldable {b : Char} (h : c.rest = b :: t) (hb : isFoldable b = true) :
    c.takeWhile (fun ch => ch == ' ' || ch == '\t') = ([], c) := by
  refine takeWhile_of_append (w := []) h (by simp) ?_
  rintro x ⟨⟩
  simp only [isFoldable, Bool.or_eq_true, beq_iff_eq] at hb
  rcases hb with ((rfl | rfl) | rfl) | rfl <;> decide

/-- Further line breaks are read one by one, and the indentation after them is skipped. -/
lemma takeQuotedBreaks_of_foldable {more : List Char} (hm : ∀ x ∈ more, isFoldable x = true)
    (h : c.rest = more ++ ' ' :: ' ' :: t) (ht : Solid t) {bound : Nat}
    (hb : more.length < bound) :
    takeQuotedBreaks bound c = .ok (more.flatMap breakText, c.advanceBy (more.length + 2)) := by
  induction more generalizing c bound with
  | nil =>
    obtain ⟨bound, rfl⟩ := Nat.exists_eq_add_of_lt hb
    have hs := takeWhile_blank_of_solid (g := [' ', ' ']) (by simp) h ht
    have hp : (c.advanceBy 2).peek = t.headD endMark := by simp [peek, h]
    simp only [takeQuotedBreaks, not_atSeparator h (by decide) (by decide), Bool.not_false, ensure,
      if_true, skipWhile, hs, List.length_cons, List.length_nil, hp, isBreak_headD ht]
    rfl
  | cons b more ih =>
    obtain ⟨bound, rfl⟩ := Nat.exists_eq_add_of_lt (Nat.zero_lt_of_lt hb)
    have hf := hm b List.mem_cons_self
    have hsep : c.atSeparator = false :=
      not_atSeparator h (by rintro rfl; revert hf; decide) (by rintro rfl; revert hf; decide)
    have hp : isBreak c.peek = true := by
      simp only [peek, h]
      exact isBreak_of_isFoldable hf
    have hr : takeQuotedBreaks (0 + bound) c.advance =
        .ok (more.flatMap breakText, c.advance.advanceBy (more.length + 2)) :=
      ih (fun x hx => hm x (List.mem_cons_of_mem _ hx)) (by simp [h]) (by simpa using hb)
    simp only [takeQuotedBreaks, hsep, Bool.not_false, ensure, if_true, skipWhile,
      takeWhile_blank_of_foldable h hf, hp, takeBreak_of_foldable h hf, hr, bind, Except.bind]
    rfl

lemma takeQuotedBlanks_spaces {g : List Char} (hg : ∀ x ∈ g, x = ' ') (h : c.rest = g ++ t)
    (ht : Solid t) (ht' : t ≠ []) :
    takeQuotedBlanks c = .ok (g, c.advanceBy g.length) := by
  have hp : (c.advanceBy g.length).peek = t.headD endMark := by simp [peek, h]
  have he : t.headD endMark ≠ endMark := by
    obtain ⟨x, t, rfl⟩ := List.exists_cons_of_ne_nil ht'
    exact (isGapOrEnd_eq_false_iff.1 (ht x rfl)).2.1
  simp only [takeQuotedBlanks, takeWhile_blank_of_solid hg h ht, hp, beq_iff_eq, he, if_false,
    isBreak_headD ht, Bool.false_eq_true]
  rfl

lemma takeQuotedBlanks_breaks {b : Char} {more : List Char}
    (hb : ∀ x ∈ b :: more, isFoldable x = true) (h : c.rest = b :: more ++ ' ' :: ' ' :: t)
    (ht : Solid t) :
    takeQuotedBlanks c =
      .ok (foldBreaks (breakText b) (more.flatMap breakText), c.advanceBy (more.length + 3)) := by
  have hf := hb b List.mem_cons_self
  have hp : c.peek = b := by simp [peek, h]
  have he : b ≠ endMark := by
    rintro rfl
    revert hf
    decide
  have hm : takeQuotedBreaks c.advance.rest.length c.advance =
      .ok (more.flatMap breakText, c.advance.advanceBy (more.length + 2)) :=
    takeQuotedBreaks_of_foldable (fun x hx => hb x (List.mem_cons_of_mem _ hx)) (by simp [h]) ht
      (by simp [h])
  simp only [takeQuotedBlanks, takeWhile_blank_of_foldable h hf, hp, beq_iff_eq, he, if_false,
    isBreak_of_isFoldable hf, if_true, takeBreak_of_foldable h hf, hm, bind, Except.bind]
  rfl

/-- An escaped line break is read as nothing, with the indentation after it. -/
lemma takeEscape_fold (h : c.rest = '\n' :: ' ' :: ' ' :: t) (ht : Solid t) :
    takeEscape c = .ok ([], c.advanceBy 3) := by
  have hp : c.peek = '\n' := by simp [peek, h]
  have hb : c.takeBreak.2 = c.advance := by simp [takeBreak_of_foldable h rfl]
  have hm : takeQuotedBreaks c.rest.length c.advance = .ok ([], c.advance.advanceBy 2) :=
    takeQuotedBreaks_of_foldable (List.forall_mem_nil _) (by simp [h]) ht (by simp [h])
  simp only [takeEscape, hp, hb, hm]
  rfl

/-! ### Words in quoted scalars -/

lemma takeQuotedWord_plain {ch : Char} (h : c.rest = ch :: t) (hp : isQuotedPlain ch = true)
    (bound : Nat) :
    takeQuotedWord double (bound + 1) c =
      (takeQuotedWord double (bound + 1) c.advance).map fun r => (ch :: r.1, r.2) := by
  have h' : c.advance.rest = t := by simp [h]
  simp only [takeQuotedWord, Cursor.takeWhile, h, h', List.takeWhile_cons, hp, if_true,
    List.length_cons, advanceBy]
  split_ifs
  · cases takeQuotedWord double bound _ <;> rfl
  · cases takeQuotedWord double bound _ <;> rfl
  · cases takeEscape _ with
    | error e => rfl
    | ok r =>
      simp only [bind, Except.bind]
      cases takeQuotedWord double bound _ <;> rfl
  · rfl

lemma takeQuotedWord_stop {ch : Char} (h : c.rest = ch :: t) (hp : isQuotedPlain ch = false)
    (bound : Nat) :
    takeQuotedWord double (bound + 1) c =
      if !double && ch == '\'' && c.peekAt 1 == '\'' then
        (takeQuotedWord double bound (c.advanceBy 2)).map fun r => ('\'' :: r.1, r.2)
      else if (double && ch == '\'') || (!double && (ch == '"' || ch == '\\')) then
        (takeQuotedWord double bound c.advance).map fun r => (ch :: r.1, r.2)
      else if double && ch == '\\' then do
        let r ← takeEscape c.advance
        (takeQuotedWord double bound r.2).map fun q => (r.1 ++ q.1, q.2)
      else .ok ([], c) := by
  simp only [takeQuotedWord, Cursor.takeWhile, h, List.takeWhile_cons, hp, if_false,
    List.length_nil, advanceBy, peek, List.headD_cons, Bool.false_eq_true]
  split_ifs
  · cases takeQuotedWord double bound _ <;> rfl
  · cases takeQuotedWord double bound _ <;> rfl
  · cases takeEscape _ with
    | error e => rfl
    | ok r =>
      simp only [bind, Except.bind]
      cases takeQuotedWord double bound _ <;> rfl
  · rfl

/-- The characters at a cursor, up to a closing quote, are read as a text: first a word of it, then
the gaps and words after. -/
def ReadsQuoted (double : Bool) (quote : Char) (c : Cursor) (cs : List Char) (c' : Cursor) : Prop :=
  ∃ word rest mid, word ++ rest = cs ∧ mid.rest.length ≤ c.rest.length ∧
    (∀ bound, c.rest.length < bound → takeQuotedWord double bound c = .ok (word, mid)) ∧
    ∀ bound, mid.rest.length < bound → takeQuotedRest double quote bound mid = .ok (rest, c')

lemma ReadsQuoted.word
    (hw : ∀ bound, ∃ bound', bound ≤ bound' ∧ takeQuotedWord double (bound + 1) c =
      (takeQuotedWord double bound' next).map fun r => (p ++ r.1, r.2))
    (hl : next.rest.length < c.rest.length) (h : ReadsQuoted double quote next cs c') :
    ReadsQuoted double quote c (p ++ cs) c' := by
  obtain ⟨word, rest, mid, rfl, hm, hword, hrest⟩ := h
  refine ⟨p ++ word, rest, mid, by simp, hm.trans hl.le, fun bound hb => ?_, hrest⟩
  obtain ⟨bound, rfl⟩ := Nat.exists_eq_add_of_lt (Nat.zero_lt_of_lt hb)
  obtain ⟨bound', hb', he⟩ := hw (0 + bound)
  rw [he, hword bound' (by omega)]
  rfl

lemma ReadsQuoted.blanks
    (hs : ∀ bound, takeQuotedWord double (bound + 1) c = .ok ([], c)) (hq : c.peek ≠ quote)
    (hb : takeQuotedBlanks c = .ok (p, next)) (hl : next.rest.length < c.rest.length)
    (h : ReadsQuoted double quote next cs c') : ReadsQuoted double quote c (p ++ cs) c' := by
  obtain ⟨word, rest, mid, rfl, hm, hword, hrest⟩ := h
  refine ⟨[], p ++ word ++ rest, c, by simp, le_rfl, fun bound hb => ?_, fun bound hb' => ?_⟩
  · obtain ⟨bound, rfl⟩ := Nat.exists_eq_add_of_lt (Nat.zero_lt_of_lt hb)
    exact hs _
  · obtain ⟨bound, rfl⟩ := Nat.exists_eq_add_of_lt (Nat.zero_lt_of_lt hb')
    simp only [takeQuotedRest, hb, beq_iff_eq, hq, if_false, bind, Except.bind,
      hword _ (Nat.lt_succ_self _), hrest (0 + bound) (by omega)]
    rfl

/-- The characters after a backslash are read as one character. -/
def Escapes (e : List Char) (ch : Char) : Prop :=
  ∀ (c : Cursor) (t : List Char), c.rest = e ++ t → takeEscape c = .ok ([ch], c.advanceBy e.length)

lemma quote_cases (hq : quote = if double then '"' else '\'') : quote = '"' ∨ quote = '\'' := by
  cases double with
  | true => exact .inl hq
  | false => exact .inr hq

namespace ReadsQuoted

variable {x : Char} {e g : List Char}

/-- The closing quote ends the text. -/
lemma close (hq : quote = if double then '"' else '\'') (hc : c.rest = quote :: t)
    (ht : double = false → t.head? ≠ some '\'') : ReadsQuoted double quote c [] c.advance := by
  refine ⟨[], [], c, rfl, le_rfl, fun bound hb => ?_, fun bound hb => ?_⟩
  · obtain ⟨bound, rfl⟩ := Nat.exists_eq_add_of_lt (Nat.zero_lt_of_lt hb)
    rw [takeQuotedWord_stop hc (by rcases quote_cases hq with rfl | rfl <;> rfl)]
    cases double with
    | true => simp_all
    | false =>
      -- two apostrophes would be read as one of the text
      have hn : c.peekAt 1 ≠ '\'' := by
        have hhead := ht rfl
        cases t with
        | nil => simp [peekAt, hc, endMark]
        | cons x t => simpa [peekAt, hc] using hhead
      simp_all
  · obtain ⟨bound, rfl⟩ := Nat.exists_eq_add_of_lt (Nat.zero_lt_of_lt hb)
    simp [takeQuotedRest, peek, hc]

lemma plain (hx : isQuotedPlain x = true) (hc : c.rest = x :: t)
    (h : ReadsQuoted double quote c.advance cs c') : ReadsQuoted double quote c (x :: cs) c' :=
  word (p := [x]) (fun bound => ⟨bound + 1, bound.le_succ, takeQuotedWord_plain hc hx bound⟩)
    (by simp [hc]) h

lemma mark (hx : if double then x = '\'' else x = '"' ∨ x = '\\') (hc : c.rest = x :: t)
    (h : ReadsQuoted double quote c.advance cs c') : ReadsQuoted double quote c (x :: cs) c' := by
  refine word (p := [x]) (fun bound => ⟨bound, le_rfl, ?_⟩) (by simp [hc]) h
  cases double with
  | true =>
    obtain rfl : x = '\'' := hx
    rw [takeQuotedWord_stop hc (by decide)]
    rfl
  | false =>
    obtain rfl | rfl : x = '"' ∨ x = '\\' := hx
    all_goals
      rw [takeQuotedWord_stop hc (by decide)]
      rfl

lemma apostrophe (hc : c.rest = '\'' :: '\'' :: t)
    (h : ReadsQuoted false quote (c.advanceBy 2) cs c') :
    ReadsQuoted false quote c ('\'' :: cs) c' := by
  refine word (p := ['\'']) (fun bound => ⟨bound, le_rfl, ?_⟩) (by simp [hc]) h
  rw [takeQuotedWord_stop hc (by decide)]
  simp [peekAt, hc]

lemma escape (he : Escapes e x) (hc : c.rest = '\\' :: (e ++ t))
    (h : ReadsQuoted true quote (c.advance.advanceBy e.length) cs c') :
    ReadsQuoted true quote c (x :: cs) c' := by
  have hnext : c.advance.rest = e ++ t := by simp [hc]
  refine word (p := [x]) (fun bound => ⟨bound, le_rfl, ?_⟩) (by simp [hc]) h
  rw [takeQuotedWord_stop hc (by decide)]
  simp only [he _ _ hnext]
  rfl

lemma fold (hc : c.rest = '\\' :: '\n' :: ' ' :: ' ' :: t) (ht : Solid t)
    (h : ReadsQuoted true quote (c.advanceBy 4) cs c') : ReadsQuoted true quote c cs c' := by
  have hnext : c.advance.rest = '\n' :: ' ' :: ' ' :: t := by simp [hc]
  refine word (p := []) (fun bound => ⟨bound, le_rfl, ?_⟩) ?_ h
  · rw [takeQuotedWord_stop hc (by decide)]
    simp only [takeEscape_fold hnext ht]
    rfl
  · simp only [advanceBy_rest, List.length_drop, hc, List.length_cons]
    omega

lemma spaces (hq : quote = if double then '"' else '\'') (hg : g ≠ []) (hb : ∀ x ∈ g, x = ' ')
    (hc : c.rest = g ++ t) (ht : Solid t) (ht' : t ≠ [])
    (h : ReadsQuoted double quote (c.advanceBy g.length) cs c') :
    ReadsQuoted double quote c (g ++ cs) c' := by
  have hblanks := takeQuotedBlanks_spaces hb hc ht ht'
  obtain ⟨x, g, rfl⟩ := List.exists_cons_of_ne_nil hg
  obtain rfl : x = ' ' := hb x List.mem_cons_self
  refine blanks (fun bound => ?_) ?_ hblanks (by simp [hc]) h
  · rw [takeQuotedWord_stop hc (by decide)]
    simp
  · rcases quote_cases hq with rfl | rfl <;> simp [peek, hc]

/-- Line breaks are read with the indentation after them. -/
lemma breaks {b : Char} {more : List Char} (hq : quote = if double then '"' else '\'')
    (hb : ∀ x ∈ b :: more, isFoldable x = true) (hc : c.rest = b :: more ++ ' ' :: ' ' :: t)
    (ht : Solid t) (h : ReadsQuoted double quote (c.advanceBy (more.length + 3)) cs c') :
    ReadsQuoted double quote c (foldBreaks (breakText b) (more.flatMap breakText) ++ cs) c' := by
  have hblanks := takeQuotedBlanks_breaks hb hc ht
  have hf := hb b List.mem_cons_self
  simp only [isFoldable, Bool.or_eq_true, beq_iff_eq] at hf
  refine blanks (fun bound => ?_) ?_ hblanks ?_ h
  · rw [takeQuotedWord_stop hc (by rcases hf with ((rfl | rfl) | rfl) | rfl <;> rfl)]
    rcases hf with ((rfl | rfl) | rfl) | rfl <;> simp
  · rcases quote_cases hq with rfl | rfl <;> rcases hf with ((rfl | rfl) | rfl) | rfl <;>
      simp [peek, hc]
  · simp only [advanceBy_rest, List.length_drop, hc, List.length_append, List.length_cons]
    omega

end ReadsQuoted

end Cursor

open Cursor

/-- What line breaks between the lines of a quoted text are read as. -/
def readBreaks : List Char → List Char
  | [] => []
  | b :: more => foldBreaks (breakText b) (more.flatMap breakText)

/-- The characters between quotes, and the text that they spell. A fold goes to the second column of
the next line. -/
inductive QuotedForm (double : Bool) : List Char → List Char → Prop
  | nil : QuotedForm double [] []
  | plain {c : Char} {w cs : List Char} (hc : isQuotedPlain c = true)
      (hw : QuotedForm double w cs) : QuotedForm double (c :: w) (c :: cs)
  /-- A mark that has a meaning only in the other style. -/
  | mark {c : Char} {w cs : List Char} (hc : if double then c = '\'' else c = '"' ∨ c = '\\')
      (hw : QuotedForm double w cs) : QuotedForm double (c :: w) (c :: cs)
  | apostrophe {w cs : List Char} (hd : double = false) (hw : QuotedForm double w cs) :
      QuotedForm double ('\'' :: '\'' :: w) ('\'' :: cs)
  | escape {e : List Char} {c : Char} {w cs : List Char} (hd : double = true) (he : Escapes e c)
      (hw : QuotedForm double w cs) : QuotedForm double ('\\' :: e ++ w) (c :: cs)
  | fold {w cs : List Char} (hd : double = true) (hs : Solid w) (hw : QuotedForm double w cs) :
      QuotedForm double ('\\' :: '\n' :: ' ' :: ' ' :: w) cs
  | spaces {g w cs : List Char} (hg : g ≠ []) (hb : ∀ c ∈ g, c = ' ') (hs : Solid w)
      (hw : QuotedForm double w cs) : QuotedForm double (g ++ w) (g ++ cs)
  | breaks {b : Char} {more w cs : List Char} (hd : double = false)
      (hb : ∀ c ∈ b :: more, isFoldable c = true) (hs : Solid w) (hw : QuotedForm double w cs) :
      QuotedForm double (b :: more ++ ' ' :: ' ' :: w) (readBreaks (b :: more) ++ cs)

namespace QuotedForm

variable {double : Bool} {quote : Char} {c : Cursor} {w cs t : List Char}

lemma reads (hf : QuotedForm double w cs) (hq : quote = if double then '"' else '\'')
    (hc : c.rest = w ++ quote :: t) (ht : double = false → t.head? ≠ some '\'') :
    ReadsQuoted double quote c cs (c.advanceBy (w.length + 1)) := by
  have hsolid : Solid (quote :: t) := by
    rintro x ⟨⟩
    rcases quote_cases hq with rfl | rfl <;> rfl
  induction hf generalizing c with
  | nil => exact .close hq hc ht
  | plain hx _ ih => exact .plain hx hc (ih (by simp [hc]))
  | mark hx _ ih => exact .mark hx hc (ih (by simp [hc]))
  | apostrophe hd _ ih =>
    subst hd
    exact .apostrophe hc (ih (by simp [hc]))
  | @escape e _ w _ hd he _ ih =>
    subst hd
    rw [advanceBy_append ('\\' :: e) w]
    exact .escape he (t := w ++ quote :: t) (by simp [hc]) (ih (by simp [hc]))
  | fold hd hs _ ih =>
    subst hd
    exact .fold hc (solid_append hs hsolid) (ih (by simp [hc]))
  | @spaces g w _ hg hb hs _ ih =>
    rw [advanceBy_append g w]
    exact .spaces hq hg hb (by simp [hc]) (solid_append hs hsolid) (by simp) (ih (by simp [hc]))
  | @breaks b more w _ _ hb hs _ ih =>
    have hsplit : b :: more ++ ' ' :: ' ' :: w = b :: more ++ [' ', ' '] ++ w := by simp
    rw [hsplit, advanceBy_append, List.length_append]
    exact .breaks hq hb (by simp [hc]) (solid_append hs hsolid) (ih (by simp [hc]))

/-- A quoted scalar is read as the text that it spells. -/
lemma takeQuoted_eq (hf : QuotedForm double w cs) (hq : quote = if double then '"' else '\'')
    (hc : c.rest = quote :: w ++ quote :: t) (ht : double = false → t.head? ≠ some '\'') :
    takeQuoted c = .ok (.scalar (String.ofList cs) false, c.advanceBy (w.length + 2)) := by
  obtain ⟨word, rest, mid, rfl, -, hword, hrest⟩ := hf.reads (c := c.advance) hq (by simp [hc]) ht
  have hp : c.peek = quote := by simp [peek, hc]
  have hd : (quote == '"') = double := by cases double <;> simp [hq]
  simp only [takeQuoted, hp, hd, hword _ (Nat.lt_succ_self _), hrest _ (Nat.lt_succ_self _), bind,
    Except.bind]
  rfl

end QuotedForm

/-! ### Plain scalars -/

/-- A word of a plain scalar. -/
structure IsPlainWord (u : List Char) : Prop where
  ne_nil : u ≠ []
  solid : ∀ c ∈ u, isGapOrEnd c = false
  isInline : ∀ c ∈ u, isInline c = true
  head_ne : u.head? ≠ some '#'
  last_ne : u.getLast? ≠ some ':'

/-- The characters of a plain scalar inside a block, and the text that they spell. A fold goes to
the second column of the next line and stands for a space. -/
inductive PlainForm : List Char → List Char → Prop
  | word {u : List Char} (hu : IsPlainWord u) : PlainForm u u
  | spaces {u g w cs : List Char} (hu : IsPlainWord u) (hg : g ≠ []) (hb : ∀ c ∈ g, c = ' ')
      (hw : PlainForm w cs) : PlainForm (u ++ (g ++ w)) (u ++ (g ++ cs))
  | fold {u w cs : List Char} (hu : IsPlainWord u) (hw : PlainForm w cs) :
      PlainForm (u ++ '\n' :: ' ' :: ' ' :: w) (u ++ ' ' :: cs)

/-- A plain scalar ends before these characters, if a word ends there. -/
def EndsPlain (t : List Char) : Prop :=
  endsPlain false (t.headD endMark) (t.tail.headD endMark) = true

lemma endsPlain_of_spaces {g t : List Char} (hg : g ≠ []) (hb : ∀ c ∈ g, c = ' ') :
    EndsPlain (g ++ t) := by
  obtain ⟨x, g, rfl⟩ := List.exists_cons_of_ne_nil hg
  obtain rfl := hb x List.mem_cons_self
  rfl

/-- A colon ends a word only before a gap, and no gap follows inside the word. -/
lemma plainWord_append {v t : List Char} (hs : ∀ c ∈ v, isGapOrEnd c = false)
    (hl : v.getLast? ≠ some ':') (ht : EndsPlain t) : plainWord false (v ++ t) = v := by
  induction v with
  | nil =>
    cases t with
    | nil => rfl
    | cons x t =>
      have hx : endsPlain false x (t.headD endMark) = true := ht
      rw [List.nil_append, plainWord, if_pos hx]
  | cons x v ih =>
    have hx := hs x List.mem_cons_self
    have he : endsPlain false x ((v ++ t).headD endMark) = false := by
      cases v with
      | nil =>
        have hcolon : x ≠ ':' := by simpa using hl
        simp [endsPlain, hx, hcolon]
      | cons y v => simp [endsPlain, hx, hs y (by simp)]
    have hl' : v.getLast? ≠ some ':' := by
      cases v with
      | nil => simp
      | cons y v => simpa using hl
    rw [List.cons_append, plainWord, he, if_neg (by simp),
      ih (fun c hc => hs c (List.mem_cons_of_mem _ hc)) hl']

lemma IsPlainWord.plainWord_eq {u t : List Char} (hu : IsPlainWord u) (ht : EndsPlain t) :
    plainWord false (u ++ t) = u :=
  plainWord_append hu.solid hu.last_ne ht

lemma IsPlainWord.peek_ne {c : Cursor} {u t : List Char} (hu : IsPlainWord u)
    (hc : c.rest = u ++ t) : c.peek ≠ '#' := by
  obtain ⟨x, v, rfl⟩ := List.exists_cons_of_ne_nil hu.ne_nil
  simpa [peek, hc] using hu.head_ne

namespace PlainForm

variable {c : Cursor} {w cs t : List Char}

private lemma exists_head (hf : PlainForm w cs) :
    ∃ x v, w = x :: v ∧ isGapOrEnd x = false ∧ x ≠ '#' := by
  have word {u : List Char} (hu : IsPlainWord u) (v : List Char) :
      ∃ x v', u ++ v = x :: v' ∧ isGapOrEnd x = false ∧ x ≠ '#' := by
    obtain ⟨x, u, rfl⟩ := List.exists_cons_of_ne_nil hu.ne_nil
    exact ⟨x, u ++ v, rfl, hu.solid x List.mem_cons_self, by simpa using hu.head_ne⟩
  cases hf with
  | word hu => simpa using word hu []
  | spaces hu => exact word hu _
  | fold hu => exact word hu _

lemma solid (hf : PlainForm w cs) (t : List Char) : Solid (w ++ t) := by
  obtain ⟨x, v, rfl, hx, -⟩ := hf.exists_head
  rintro y ⟨⟩
  exact hx

lemma peek_ne (hf : PlainForm w cs) (hc : c.rest = w ++ t) : c.peek ≠ '#' := by
  obtain ⟨x, v, rfl, -, hx⟩ := hf.exists_head
  simpa [peek, hc] using hx

lemma ne_nil (hf : PlainForm w cs) : cs ≠ [] := by
  cases hf with
  | word hu => exact hu.ne_nil
  | spaces hu => simp [hu.ne_nil]
  | fold hu => simp [hu.ne_nil]

end PlainForm

namespace Cursor

variable {c : Cursor} {w cs t : List Char}

lemma takePlainGap_spaces {g : List Char} (hg : g ≠ []) (hb : ∀ x ∈ g, x = ' ')
    (hc : c.rest = g ++ t) (ht : Solid t) :
    takePlainGap c = (some g, false, c.advanceBy g.length) := by
  have hw : c.takeWhile (· == ' ') = (g, c.advanceBy g.length) :=
    takeWhile_of_append hc (fun x hx => by simp [hb x hx])
      fun x hx => by simp [(isGapOrEnd_eq_false_iff.1 (ht x hx)).2.2.1]
  have hp : (c.advanceBy g.length).peek = t.headD endMark := by simp [peek, hc]
  simp only [takePlainGap, hw, hp, isBreak_headD ht, List.isEmpty_iff, hg, if_false,
    Bool.false_eq_true]

/-- The spaces after a line break are gone over, one in each step. -/
lemma takePlainBreaks_spaces {g : List Char} (hg : ∀ x ∈ g, x = ' ') (hc : c.rest = g ++ t)
    (ht : Solid t) {bound : Nat} (hb : g.length < bound) :
    takePlainBreaks bound c = (some [], c.advanceBy g.length) := by
  induction g generalizing c bound with
  | nil =>
    obtain ⟨bound, rfl⟩ := Nat.exists_eq_add_of_lt hb
    have hp : c.peek = t.headD endMark := by simp [peek, hc]
    have hn : t.headD endMark ≠ ' ' := by
      cases t with
      | nil => simp [endMark]
      | cons x t => exact (isGapOrEnd_eq_false_iff.1 (ht x rfl)).2.2.1
    simp only [takePlainBreaks, hp, beq_iff_eq, hn, if_false, isBreak_headD ht]
    rfl
  | cons x g ih =>
    obtain ⟨bound, rfl⟩ := Nat.exists_eq_add_of_lt (Nat.zero_lt_of_lt hb)
    have hx : c.peek = ' ' := by simp [peek, hc, hg x List.mem_cons_self]
    rw [takePlainBreaks, if_pos (by simp [hx]), ih (fun y hy => hg y (List.mem_cons_of_mem _ hy))
      (by simp [hc]) (by simpa using hb)]
    rfl

lemma takePlainGap_lineFeed {g : List Char} (hb : ∀ x ∈ g, x = ' ') (hc : c.rest = '\n' :: g ++ t)
    (ht : Solid t) (hs : c.advance.atSeparator = false) :
    takePlainGap c = (some [' '], true, c.advance.advanceBy g.length) := by
  have hw : c.takeWhile (· == ' ') = ([], c) := takeWhile_of_append (w := []) hc (by simp) (by simp)
  have hp : c.peek = '\n' := by simp [peek, hc]
  have hk : c.takeBreak = (['\n'], c.advance) := takeBreak_of_foldable hc rfl
  have hr : takePlainBreaks (c.advance.rest.length + 1) c.advance = _ :=
    takePlainBreaks_spaces hb (by simp [hc]) ht (by simp [hc])
  simp only [takePlainGap, hw, hp, hk, hs, hr]
  rfl

section Words

variable {u : List Char} {column : Int} {bound : Nat} {gap : Option (List Char)} {ended : Bool}
  {next : Cursor}

lemma takePlainWords_last (hu : IsPlainWord u) (hc : c.rest = u ++ t) (ht : EndsPlain t)
    (hg : takePlainGap (c.advanceBy u.length) = (gap, ended, next))
    (hs : gap = none ∨ (next.column : Int) < column) :
    takePlainWords false column (bound + 1) c = (u, ended, next) := by
  have hp : c.peek ≠ '#' := hu.peek_ne hc
  have hw : plainWord false c.rest = u := by rw [hc, hu.plainWord_eq ht]
  unfold takePlainWords
  simp only [beq_iff_eq, hp, if_false, hw, List.isEmpty_iff, hu.ne_nil, hg]
  cases gap with
  | none => rfl
  | some g => simp [hs.resolve_left (by simp)]

lemma takePlainWords_cons {more g : List Char} {ended' : Bool} {c' : Cursor} (hu : IsPlainWord u)
    (hc : c.rest = u ++ t) (ht : EndsPlain t)
    (hg : takePlainGap (c.advanceBy u.length) = (some g, ended, next)) (hp : next.peek ≠ '#')
    (hcol : column ≤ next.column) (hm : more ≠ [])
    (hr : takePlainWords false column bound next = (more, ended', c')) :
    takePlainWords false column (bound + 1) c = (u ++ (g ++ more), ended', c') := by
  have hp' : c.peek ≠ '#' := hu.peek_ne hc
  have hw : plainWord false c.rest = u := by rw [hc, hu.plainWord_eq ht]
  obtain ⟨x, more, rfl⟩ := List.exists_cons_of_ne_nil hm
  unfold takePlainWords
  simp [hp', hw, hu.ne_nil, hg, hp, hcol, hr]

/-- Spaces inside a line stand for themselves. -/
lemma takePlainWords_spaces {g : List Char} (hu : IsPlainWord u) (hg : g ≠ [])
    (hgs : ∀ x ∈ g, x = ' ') (hw : PlainForm w cs) (hc : c.rest = u ++ (g ++ (w ++ t)))
    (hcol : column ≤ 1)
    (hr : takePlainWords false column bound (c.advanceBy (u ++ g).length) = (cs, ended, next)) :
    takePlainWords false column (bound + 1) c = (u ++ (g ++ cs), ended, next) := by
  have hcur : c.advanceBy (u ++ g).length =
      ⟨w ++ t, c.index + (u ++ g).length, c.line, c.column + (u ++ g).length⟩ := by
    refine advanceBy_inline (by simp [hc]) fun x hx => ?_
    rcases List.mem_append.1 hx with hx | hx
    · exact hu.isInline x hx
    · rw [hgs x hx]
      decide
  have hgap : takePlainGap (c.advanceBy u.length) =
      (some g, false, c.advanceBy (u ++ g).length) := by
    rw [List.length_append, advanceBy_add]
    exact takePlainGap_spaces hg hgs (t := w ++ t) (by simp [hc]) (hw.solid t)
  have hcolumn : column ≤ (c.advanceBy (u ++ g).length).column := by
    have hpos := List.length_pos_iff.2 hu.ne_nil
    rw [hcur, List.length_append]
    push_cast
    omega
  exact takePlainWords_cons hu hc (endsPlain_of_spaces hg hgs) hgap (hw.peek_ne (by rw [hcur]))
    hcolumn hw.ne_nil hr

/-- A fold stands for a space. -/
lemma takePlainWords_fold (hu : IsPlainWord u) (hw : PlainForm w cs)
    (hc : c.rest = u ++ '\n' :: ' ' :: ' ' :: (w ++ t)) (hcol : column ≤ 1)
    (hr : takePlainWords false column bound (c.advanceBy (u.length + 3)) = (cs, ended, next)) :
    takePlainWords false column (bound + 1) c = (u ++ ' ' :: cs, ended, next) := by
  have hfeed : (c.advanceBy u.length).rest = '\n' :: ([' ', ' '] ++ (w ++ t)) := by simp [hc]
  have hcur : (c.advanceBy u.length).advance.advanceBy [' ', ' '].length =
      c.advanceBy (u.length + 3) := by
    rw [advanceBy_add]
    rfl
  have hgap : takePlainGap (c.advanceBy u.length) =
      (some [' '], true, c.advanceBy (u.length + 3)) := by
    rw [← hcur]
    exact takePlainGap_lineFeed (by simp) hfeed (hw.solid t)
      (not_atSeparator (by rw [advance_rest, hfeed]; rfl) (by decide) (by decide))
  have hcolumn : (c.advanceBy (u.length + 3)).column = 2 := by
    have hi : ∀ x ∈ [' ', ' '], isInline x = true := by simp [isInline, isBreak]
    rw [← hcur, advance_lineFeed hfeed, advanceBy_inline rfl hi]
    rfl
  have hrest : (c.advanceBy (u.length + 3)).rest = w ++ t := by simp [hc]
  exact takePlainWords_cons hu hc rfl hgap (hw.peek_ne hrest) (by rw [hcolumn]; omega) hw.ne_nil hr

end Words

/-- Words are read as the text that they spell. `stop` tells how the scalar ends: what the gap after
the last word is taken for, and that no word can follow it. -/
lemma takePlainWords_eq {column : Int} {bound n : Nat} {ended : Bool} (hf : PlainForm w cs)
    (hc : c.rest = w ++ t) (ht : EndsPlain t) (hcol : column ≤ 1)
    (stop : ∀ c : Cursor, c.rest = t → ∃ gap, takePlainGap c = (gap, ended, c.advanceBy n) ∧
      (gap = none ∨ ((c.advanceBy n).column : Int) < column))
    (hb : w.length < bound) :
    takePlainWords false column bound c = (cs, ended, c.advanceBy (w.length + n)) := by
  induction hf generalizing c bound with
  | @word u hu =>
    obtain ⟨bound, rfl⟩ := Nat.exists_eq_add_of_lt (Nat.zero_lt_of_lt hb)
    obtain ⟨gap, hgap, hstop⟩ := stop (c.advanceBy u.length) (by simp [hc])
    rw [← advanceBy_add] at hgap hstop
    exact takePlainWords_last hu hc ht hgap hstop
  | @spaces u g w cs hu hg hgs hw ih =>
    obtain ⟨bound, rfl⟩ := Nat.exists_eq_add_of_lt (Nat.zero_lt_of_lt hb)
    have hpos := List.length_pos_iff.2 hu.ne_nil
    have hcur : c.advanceBy ((u ++ (g ++ w)).length + n) =
        (c.advanceBy (u ++ g).length).advanceBy (w.length + n) := by
      rw [← advanceBy_add, ← List.append_assoc, List.length_append, Nat.add_assoc]
    rw [hcur]
    exact takePlainWords_spaces hu hg hgs hw (t := t) (by simp [hc]) hcol
      (ih (by simp [hc]) (by simp only [List.length_append] at hb; omega))
  | @fold u w cs hu hw ih =>
    obtain ⟨bound, rfl⟩ := Nat.exists_eq_add_of_lt (Nat.zero_lt_of_lt hb)
    have hcur : c.advanceBy ((u ++ '\n' :: ' ' :: ' ' :: w).length + n) =
        (c.advanceBy (u.length + 3)).advanceBy (w.length + n) := by
      rw [← advanceBy_add]
      congr 1
      simp only [List.length_append, List.length_cons]
      omega
    rw [hcur]
    exact takePlainWords_fold hu hw (t := t) (by simp [hc]) hcol
      (ih (by simp [hc]) (by simp only [List.length_append, List.length_cons] at hb; omega))

/-- A plain scalar at the end of a line is taken with the line break. -/
lemma takePlain_lineFeed (hf : PlainForm w cs) (hc : c.rest = w ++ '\n' :: t) (ht : Solid t)
    (hs : (c.advanceBy (w.length + 1)).atSeparator = false) :
    takePlain false 0 c = (.scalar (String.ofList cs) true, true, c.advanceBy (w.length + 1)) := by
  have hr : (c.advanceBy (w.length + 1)).rest = t := by simp [hc]
  have stop : ∀ c : Cursor, c.rest = '\n' :: t →
      ∃ gap, takePlainGap c = (gap, true, c.advanceBy 1) ∧
      (gap = none ∨ ((c.advanceBy 1).column : Int) < 0 + 1) := by
    intro d hd
    have hs' : d.advance.atSeparator = false := by
      rw [← hs]
      simp only [atSeparator, peekAt, hr, advance_rest, hd, List.tail_cons]
    refine ⟨_, takePlainGap_lineFeed (List.forall_mem_nil _) hd ht hs', .inr ?_⟩
    rw [advanceBy, advanceBy, advance_lineFeed hd]
    exact Int.zero_lt_one
  have hb : w.length < c.rest.length + 1 := by
    simp only [hc, List.length_append]
    omega
  rw [takePlain, takePlainWords_eq hf hc rfl (by decide) stop hb]

/-- A plain scalar before a colon ends there. -/
lemma takePlain_colon {indent : Int} (hf : PlainForm w cs) (hc : c.rest = w ++ ':' :: ' ' :: t)
    (hi : indent ≤ 0) :
    takePlain false indent c = (.scalar (String.ofList cs) true, false, c.advanceBy w.length) := by
  have stop : ∀ c : Cursor, c.rest = ':' :: ' ' :: t → ∃ gap,
      takePlainGap c = (gap, false, c.advanceBy 0) ∧
        (gap = none ∨ ((c.advanceBy 0).column : Int) < indent + 1) := by
    intro d hd
    have hw : d.takeWhile (· == ' ') = ([], d) :=
      takeWhile_of_append (w := []) hd (by simp) (by simp)
    refine ⟨none, ?_, .inl rfl⟩
    simp only [takePlainGap, hw, peek, hd]
    rfl
  have hb : w.length < c.rest.length + 1 := by
    simp only [hc, List.length_append]
    omega
  rw [takePlain, takePlainWords_eq hf hc rfl (by omega) stop hb]
  rfl

end Cursor

end NodeScript.Yaml
