import NodeScript.Proofs.Text
import NodeScript.Proofs.Yaml.Scalars
import NodeScript.Yaml.Writer

/-!
# Spelling texts

What the writer puts down for a text is a spelling of it: plain words, or characters between quotes,
folded at some places. Only one kind of text is read as another one: in single quotes a next-line
character is read as a line feed or a space.
-/

namespace NodeScript

namespace Yaml

open Cursor

/-! ### Escapes -/

/-- Whether a character is one of the visible ones of ASCII, or a space. -/
def isPrintable (c : Char) : Bool :=
  0x20 ≤ c.toNat && c.toNat ≤ 0x7e

lemma escapes_short {e ch : Char} (h : shortUnescapes.lookup e = some ch) : Escapes [e] ch := by
  intro c t hc
  have hp : c.peek = e := by simp [peek, hc]
  simp only [takeEscape, hp, h]
  rfl

lemma escapes_numeric {e : Char} {count : Nat} {ch : Char} (hs : shortUnescapes.lookup e = none)
    (hn : numericEscapes.lookup e = some count) (hw : 0 < count) (hch : ch.toNat < 16 ^ count) :
    Escapes (e :: Text.upperHexChars count ch.toNat) ch := by
  intro c t hc
  have hp : c.peek = e := by simp [peek, hc]
  obtain ⟨ds, hlt, hds, he⟩ := Text.exists_upperHexChars count ch.toNat
  have hl := Text.length_upperHexChars hw hch
  have hv := hds ▸ Text.mapM_hexValue? hlt
  have ht : c.advance.rest.take count = Text.upperHexChars count ch.toNat := by
    rw [advance_rest, hc, List.cons_append, List.tail_cons, List.take_left' hl]
  have hnum : charOfNumber ch.toNat = .ok ch := by
    have := Text.toNat_range ch
    rw [charOfNumber, if_neg (by omega), if_neg (by omega), Text.charOfUnit_toNat]
  simp only [takeEscape, hp, hs, hn, ht, hl, beq_self_eq_true, hv, he, takeNumbered,
    Text.isHighUnit_toNat, hnum, List.length_cons]
  cases nextUnit? _ <;> rfl

lemma lookup_shortUnescapes : ∀ p ∈ shortEscapes, shortUnescapes.lookup p.2 = some p.1 := by
  decide

lemma exists_escape (ch : Char) : ∃ e, escape ch = '\\' :: e ∧ Escapes e ch := by
  have hr := Text.toNat_range ch
  unfold escape
  split
  · next e he =>
    obtain ⟨l₁, l₂, hl, -⟩ := List.lookup_eq_some_iff.1 he
    exact ⟨[e], rfl, escapes_short (lookup_shortUnescapes (ch, e) (by simp [hl]))⟩
  · split_ifs with h2 h4
    all_goals exact ⟨_, rfl, escapes_numeric (by decide) rfl (by decide) (by omega)⟩

lemma isPrintable_escape (ch : Char) : ∀ x ∈ escape ch, isPrintable x = true := by
  have digit : ∀ d < 16, isPrintable (Text.upperDigit d) = true := by decide
  have hex (width n : Nat) : ∀ x ∈ Text.upperHexChars width n, isPrintable x = true := by
    obtain ⟨ds, hlt, hds, -⟩ := Text.exists_upperHexChars width n
    intro x hx
    obtain ⟨d, hd, rfl⟩ := List.mem_map.1 (hds ▸ hx)
    exact digit d (hlt d hd)
  have short : ∀ p ∈ shortEscapes, isPrintable p.2 = true := by decide
  unfold escape
  split
  · next e he =>
    obtain ⟨l₁, l₂, hl, -⟩ := List.lookup_eq_some_iff.1 he
    have := short (ch, e) (by simp [hl])
    simpa [isPrintable] using this
  · split_ifs
    all_goals
      refine List.forall_mem_cons.2 ⟨by decide, List.forall_mem_cons.2 ⟨by decide, hex _ _⟩⟩

/-! ### Runs -/

lemma flatMap_runs (cs : List Char) : (runs cs).flatMap Prod.snd = cs := by
  induction cs with
  | nil => rfl
  | cons c rest ih =>
    rw [runs]
    split
    · next h =>
      rw [h] at ih
      simpa using ih
    · next k ds more h =>
      rw [h] at ih
      split_ifs <;> simpa using ih

lemma runs_homogeneous (cs : List Char) :
    ∀ r ∈ runs cs, r.2 ≠ [] ∧ ∀ c ∈ r.2, RunKind.of c = r.1 := by
  induction cs with
  | nil => simp [runs]
  | cons c rest ih =>
    rw [runs]
    split
    · simp
    · next k ds more h =>
      rw [h] at ih
      have ⟨hh, ht⟩ := List.forall_mem_cons.1 ih
      split_ifs with hk
      · refine List.forall_mem_cons.2 ⟨⟨by simp, List.forall_mem_cons.2 ⟨?_, hh.2⟩⟩, ht⟩
        exact (beq_iff_eq.1 hk).symm
      · exact List.forall_mem_cons.2 ⟨by simp, ih⟩

lemma exists_runs_cons (d : Char) (rest : List Char) :
    ∃ ds more, runs (d :: rest) = (.of d, d :: ds) :: more := by
  rw [runs]
  split
  · exact ⟨[], [], rfl⟩
  · next k ds more h =>
    split_ifs with hk
    · obtain rfl := beq_iff_eq.1 hk
      exact ⟨ds, more, rfl⟩
    · exact ⟨[], _, rfl⟩

/-- Where no space stands beside a line break, every second run is of other characters. -/
lemma runs_isChain {cs : List Char} (hb : hasPair isFoldable (· == ' ') cs = false)
    (hs : hasPair (· == ' ') isFoldable cs = false) :
    (runs cs).IsChain fun a b => a.1 = .other ↔ b.1 ≠ .other := by
  induction cs with
  | nil => simp [runs]
  | cons c rest ih =>
    cases rest with
    | nil => simp [runs]
    | cons d rest =>
      simp only [hasPair, Bool.or_eq_false_iff, Bool.and_eq_false_iff] at hb hs
      have ih := ih hb.2 hs.2
      obtain ⟨ds, more, hd⟩ := exists_runs_cons d rest
      rw [hd] at ih
      rw [runs, hd]
      dsimp only
      split_ifs with hk
      · cases more with
        | nil => simp
        | cons m more => simpa using ih
      · refine List.isChain_cons_cons.2 ⟨?_, ih⟩
        simp only [RunKind.of] at hk ⊢
        grind

/-! ### Characters of texts -/

lemma isReadable_of_isPrintable {c : Char} (h : isPrintable c = true) : isReadable c = true := by
  simp only [isPrintable, Bool.and_eq_true, decide_eq_true_eq] at h
  simp [isReadable, h.1, h.2]

lemma isReadable_of_isFoldable {c : Char} (h : isFoldable c = true) : isReadable c = true := by
  simp only [isFoldable, Bool.or_eq_true, beq_iff_eq] at h
  rcases h with ((rfl | rfl) | rfl) | rfl <;> decide

lemma isReadable_of_isOrdinary {c : Char} (h : isOrdinary c = true) : isReadable c = true := by
  simp only [isOrdinary, Bool.or_eq_true, Bool.and_eq_true, beq_iff_eq, decide_eq_true_eq] at h
  simp only [isReadable, Bool.or_eq_true, Bool.and_eq_true, beq_iff_eq, decide_eq_true_eq]
  rcases h with (rfl | h) | h
  · decide
  · omega
  · omega

lemma isReadable_of_isBare {c : Char} (h : isBare c = true) : isReadable c = true := by
  simp only [isBare, Bool.or_eq_true, Bool.and_eq_true, decide_eq_true_eq] at h
  simp only [isReadable, Bool.or_eq_true, Bool.and_eq_true, beq_iff_eq, decide_eq_true_eq]
  omega

lemma isGapOrEnd_of_other {c : Char} (hk : RunKind.of c = .other) (ho : isOrdinary c = true) :
    isGapOrEnd c = false := by
  by_contra hc
  simp only [isGapOrEnd, isSpaceOrEnd, isBreakOrEnd, isBreak, endMark, Bool.not_eq_false,
    Bool.or_eq_true, beq_iff_eq] at hc
  rcases hc with ((((((rfl | rfl) | rfl) | rfl) | rfl) | rfl) | rfl) | rfl <;>
    revert hk ho <;> decide

lemma isInline_of_isOrdinary {c : Char} (ho : isOrdinary c = true) (hf : isFoldable c = false) :
    isInline c = true := by
  have hne : ∀ x ∈ ['\r', '\ufeff'], c ≠ x := by
    rintro x hx rfl
    revert ho
    fin_cases hx <;> decide
  simp only [isFoldable, Bool.or_eq_false_iff, beq_eq_false_iff_ne] at hf
  simp [isInline, isBreak, hf, hne]

lemma isInline_of_isPrintable {c : Char} (h : isPrintable c = true) : isInline c = true := by
  refine isInline_of_isOrdinary ?_ ?_
  · simp only [isPrintable, Bool.and_eq_true, decide_eq_true_eq] at h
    simp [isOrdinary, h]
  · by_contra hf
    simp only [isFoldable, Bool.not_eq_false, Bool.or_eq_true, beq_iff_eq] at hf
    rcases hf with ((rfl | rfl) | rfl) | rfl <;> revert h <;> decide

/-! ### The pen -/

namespace Pen

@[simp] lemma write_out (p : Pen) (cs : List Char) :
    (p.write cs).out.toList = p.out.toList ++ cs := by
  simp [write]

@[simp] lemma write_column (p : Pen) (cs : List Char) :
    (p.write cs).column = p.column + cs.length := rfl

@[simp] lemma settle_out (p : Pen) : p.settle.out = p.out := rfl

/-- The pen stands after text. -/
def Settled (p : Pen) : Prop :=
  p.spaced = false ∧ p.indenting = false

lemma mark_out (p : Pen) (cs : List Char) (apart opens leads : Bool) :
    (p.mark cs apart opens leads).out.toList =
      p.out.toList ++ if p.spaced || !apart then cs else ' ' :: cs := by
  simp [mark]

@[simp] lemma mark_spaced (p : Pen) (cs : List Char) (apart opens leads : Bool) :
    (p.mark cs apart opens leads).spaced = opens := rfl

/-- A fold writes a line feed and two spaces. -/
lemma indent_out {p : Pen} (h : p.indenting = false ∨ 2 < p.column) :
    (p.indent 2).out.toList = p.out.toList ++ ['\n', ' ', ' '] ∧ (p.indent 2).column = 2 := by
  have hb : (!p.indenting || decide (2 < p.column) || (p.column == 2 && !p.spaced)) = true := by
    rcases h with h | h <;> simp [h]
  simp only [indent, hb, if_true, breakLine]
  simp [write]

lemma exists_foldl_breakLine (b : Char) (more : List Char) (p : Pen) :
    ∃ out, (b :: more).foldl breakLine p = ⟨out, 0, true, true⟩ ∧
      out.toList = p.out.toList ++ b :: more := by
  induction more generalizing b p with
  | nil => exact ⟨_, rfl, by simp⟩
  | cons d more ih =>
    obtain ⟨out, he, ho⟩ := ih d (p.breakLine b)
    exact ⟨out, he, by simp [ho, breakLine]⟩

/-- The line breaks of a text as they are written. -/
def spelledBreaks (bs : List Char) : List Char :=
  if bs.head? == some '\n' then '\n' :: bs else bs

lemma spelledBreaks_ne_nil {bs : List Char} (hb : bs ≠ []) : spelledBreaks bs ≠ [] := by
  unfold spelledBreaks
  split_ifs
  · simp
  · exact hb

lemma breaks_out (p : Pen) {bs : List Char} (hb : bs ≠ []) :
    (p.breaks 2 bs).out.toList = p.out.toList ++ (spelledBreaks bs ++ [' ', ' ']) := by
  obtain ⟨b, more, rfl⟩ := List.exists_cons_of_ne_nil hb
  unfold breaks spelledBreaks
  split_ifs with h
  · obtain ⟨out, he, ho⟩ := exists_foldl_breakLine b more (p.breakLine '\n')
    dsimp only
    rw [he]
    simp [indent, write, ho, breakLine]
  · obtain ⟨out, he, ho⟩ := exists_foldl_breakLine b more p
    dsimp only
    rw [he]
    simp [indent, write, ho]

end Pen

/-! ### Texts in single quotes -/

/-- What a run of a text in single quotes is read as. -/
def readRun (r : RunKind × List Char) : List Char :=
  if r.1 = .breaks then readBreaks (Pen.spelledBreaks r.2) else r.2

/-- The spelling of a character in single quotes. -/
def singleChar (c : Char) : List Char :=
  if c == '\'' then [c, c] else [c]

lemma eq_of_mem_singleChar {c x : Char} (h : c ∈ singleChar x) : c = x := by
  unfold singleChar at h
  split_ifs at h <;> simpa using h

lemma QuotedForm.other {u w cs : List Char} (hk : ∀ c ∈ u, RunKind.of c = .other)
    (ho : ∀ c ∈ u, isOrdinary c = true) (hw : QuotedForm false w cs) :
    QuotedForm false (u.flatMap singleChar ++ w) (u ++ cs) := by
  induction u with
  | nil => exact hw
  | cons c u ih =>
    have hg := isGapOrEnd_of_other (hk c List.mem_cons_self) (ho c List.mem_cons_self)
    have ih := ih (fun x hx => hk x (List.mem_cons_of_mem _ hx))
      fun x hx => ho x (List.mem_cons_of_mem _ hx)
    rw [List.flatMap_cons, List.append_assoc, List.cons_append]
    by_cases ha : c = '\''
    · simpa [singleChar, ha] using QuotedForm.apostrophe rfl ih
    · by_cases hm : c = '"' ∨ c = '\\'
      · simpa [singleChar, ha] using QuotedForm.mark (by simpa using hm) ih
      · have hp : isQuotedPlain c = true := by
          push Not at hm
          simp [isQuotedPlain, ha, hm.1, hm.2, hg]
        simpa [singleChar, ha] using QuotedForm.plain hp ih

lemma solid_other {u : List Char} (hu : u ≠ []) (hk : ∀ c ∈ u, RunKind.of c = .other)
    (ho : ∀ c ∈ u, isOrdinary c = true) (w : List Char) : Solid (u.flatMap singleChar ++ w) := by
  obtain ⟨c, u, rfl⟩ := List.exists_cons_of_ne_nil hu
  have hg := isGapOrEnd_of_other (hk c List.mem_cons_self) (ho c List.mem_cons_self)
  unfold singleChar
  by_cases ha : c = '\'' <;> simp [Solid, ha, hg]
  rfl

lemma eq_space_of_spaces {c : Char} (hk : RunKind.of c = .spaces) : c = ' ' := by
  unfold RunKind.of at hk
  split_ifs at hk with h₁
  exact beq_iff_eq.1 h₁

lemma foldable_of_breaks {bs : List Char} (hk : ∀ c ∈ bs, RunKind.of c = .breaks) :
    ∀ c ∈ Pen.spelledBreaks bs, isFoldable c = true := by
  have hb : ∀ c ∈ bs, isFoldable c = true := by
    intro c hc
    have := hk c hc
    unfold RunKind.of at this
    split_ifs at this with h₁ h₂
    exact h₂
  unfold Pen.spelledBreaks
  split_ifs
  · exact List.forall_mem_cons.2 ⟨rfl, hb⟩
  · exact hb

/-- What is written for the runs of a text in single quotes. -/
structure SingleSpelling (split : Bool) (rs : List (RunKind × List Char)) (w : List Char) :
    Prop where
  form : QuotedForm false w (rs.flatMap readRun)
  readable : ∀ c ∈ w, isReadable c = true
  solid : (∀ r ∈ rs.head?, r.1 = .other) → Solid w
  exact : split = false → (∀ r ∈ rs, r.1 ≠ .breaks) → w = (rs.flatMap Prod.snd).flatMap singleChar

namespace SingleSpelling

variable {split : Bool} {rs : List (RunKind × List Char)} {cs w : List Char}

lemma nil : SingleSpelling split [] [] :=
  ⟨.nil, by simp, by simp [Solid], by simp⟩

/-- A fold stands for a single space. -/
lemma fold (h : SingleSpelling true rs w) (hs : Solid w) :
    SingleSpelling true ((.spaces, [' ']) :: rs) ('\n' :: ' ' :: ' ' :: w) where
  form := by
    have hform : QuotedForm false ('\n' :: [] ++ ' ' :: ' ' :: w)
        (readBreaks ['\n'] ++ rs.flatMap readRun) :=
      .breaks rfl (by simp [isFoldable]) hs h.form
    exact hform
  readable := by simpa [isReadable] using h.readable
  solid := by simp
  exact := by simp

lemma spaces (hne : cs ≠ []) (hcs : ∀ c ∈ cs, c = ' ') (h : SingleSpelling split rs w)
    (hs : Solid w) : SingleSpelling split ((.spaces, cs) :: rs) (cs ++ w) where
  form := .spaces hne hcs hs h.form
  readable := by
    refine List.forall_mem_append.2 ⟨fun c hc => ?_, h.readable⟩
    rw [hcs c hc]
    rfl
  solid := by simp
  exact hsplit hb := by
    have hsingle : cs.flatMap singleChar = cs.flatMap ([·]) :=
      List.flatMap_congr fun c hc => by
        rw [hcs c hc]
        rfl
    simp [h.exact hsplit (List.forall_mem_cons.1 hb).2, hsingle]

lemma breaks (hne : cs ≠ []) (hk : ∀ c ∈ cs, RunKind.of c = .breaks) (h : SingleSpelling split rs w)
    (hs : Solid w) :
    SingleSpelling split ((.breaks, cs) :: rs) (Pen.spelledBreaks cs ++ ' ' :: ' ' :: w) where
  form := by
    obtain ⟨b, more, hb⟩ := List.exists_cons_of_ne_nil (Pen.spelledBreaks_ne_nil hne)
    rw [List.flatMap_cons, readRun, if_pos rfl, hb]
    exact .breaks rfl (hb ▸ foldable_of_breaks hk) hs h.form
  readable := by
    refine List.forall_mem_append.2 ⟨fun c hc => ?_, by simpa [isReadable] using h.readable⟩
    exact isReadable_of_isFoldable (foldable_of_breaks hk c hc)
  solid := by simp
  exact := by simp

lemma other (hne : cs ≠ []) (hk : ∀ c ∈ cs, RunKind.of c = .other)
    (ho : ∀ c ∈ cs, isOrdinary c = true) (h : SingleSpelling split rs w) :
    SingleSpelling split ((.other, cs) :: rs) (cs.flatMap singleChar ++ w) where
  form := QuotedForm.other hk ho h.form
  readable := by
    refine List.forall_mem_append.2 ⟨fun c hc => ?_, h.readable⟩
    obtain ⟨x, hx, hc⟩ := List.mem_flatMap.1 hc
    rw [eq_of_mem_singleChar hc]
    exact isReadable_of_isOrdinary (ho x hx)
  solid _ := solid_other hne hk ho w
  exact hsplit hb := by simp [h.exact hsplit (List.forall_mem_cons.1 hb).2]

end SingleSpelling

/-- A gap is followed by other characters, or by nothing. -/
lemma other_of_isChain {r : RunKind × List Char} {rs : List (RunKind × List Char)}
    (hchain : (r :: rs).IsChain fun a b => a.1 = .other ↔ b.1 ≠ .other) (hr : r.1 ≠ .other) :
    ∀ r' ∈ rs.head?, r'.1 = .other := by
  cases rs with
  | nil => simp
  | cons r' rs =>
    rintro _ ⟨⟩
    exact not_not.1 fun hne => hr ((List.isChain_cons_cons.1 hchain).1.2 hne)

lemma Pen.singleRuns_spelling (split : Bool) {rs : List (RunKind × List Char)}
    (hchain : rs.IsChain fun a b => a.1 = .other ↔ b.1 ≠ .other)
    (hhom : ∀ r ∈ rs, r.2 ≠ [] ∧ ∀ c ∈ r.2, RunKind.of c = r.1)
    (hord : ∀ r ∈ rs, ∀ c ∈ r.2, isOrdinary c = true) (first : Bool) (p : Pen) :
    ∃ w, (p.singleRuns 2 split first rs).out.toList = p.out.toList ++ w ∧
      SingleSpelling split rs w := by
  induction rs generalizing first p with
  | nil => exact ⟨[], by simp [singleRuns], .nil⟩
  | cons r rs ih =>
    obtain ⟨k, cs⟩ := r
    have ⟨⟨hne, hk⟩, hhom⟩ := List.forall_mem_cons.1 hhom
    have ⟨ho, hord⟩ := List.forall_mem_cons.1 hord
    have ih := fun p => ih hchain.tail hhom hord false p
    have hnext := other_of_isChain hchain
    unfold singleRuns
    cases k with
    | spaces =>
      have hsp : ∀ c ∈ cs, c = ' ' := fun c hc => eq_space_of_spaces (hk c hc)
      dsimp only
      split_ifs with hfold
      · -- A single space is folded; its line has gone beyond the width.
        simp only [Bool.and_eq_true, beq_iff_eq, decide_eq_true_eq] at hfold
        obtain ⟨⟨⟨⟨hlen, hcol⟩, rfl⟩, -⟩, -⟩ := hfold
        obtain ⟨hout, -⟩ := indent_out (p := p) (.inr (lt_trans (by decide) hcol))
        obtain ⟨w, hw, hs⟩ := ih (p.indent 2)
        obtain ⟨c, rfl⟩ := List.length_eq_one_iff.1 hlen
        obtain rfl := hsp c (by simp)
        exact ⟨'\n' :: ' ' :: ' ' :: w, by simp [hw, hout], hs.fold (hs.solid (hnext (by simp)))⟩
      · obtain ⟨w, hw, hs⟩ := ih (p.write cs)
        exact ⟨cs ++ w, by simp [hw], hs.spaces hne hsp (hs.solid (hnext (by simp)))⟩
    | breaks =>
      obtain ⟨w, hw, hs⟩ := ih (p.breaks 2 cs)
      exact ⟨spelledBreaks cs ++ ' ' :: ' ' :: w, by simp [hw, breaks_out p hne],
        hs.breaks hne hk (hs.solid (hnext (by simp)))⟩
    | other =>
      obtain ⟨w, hw, hs⟩ := ih (p.write (cs.flatMap singleChar))
      exact ⟨cs.flatMap singleChar ++ w, hw.trans (by simp), hs.other hne hk ho⟩

/-! ### Texts in double quotes -/

/-- The spelling of a character in double quotes. -/
def doubleChar (c : Char) : List Char :=
  if isBare c then [c] else escape c

lemma isGapOrEnd_of_isBare {c : Char} (hb : isBare c = true) (hc : c ≠ ' ') :
    isGapOrEnd c = false := by
  by_contra h
  simp only [isGapOrEnd, isSpaceOrEnd, isBreakOrEnd, isBreak, endMark, Bool.not_eq_false,
    Bool.or_eq_true, beq_iff_eq, hc, or_false] at h
  rcases h with (((((rfl | rfl) | rfl) | rfl) | rfl) | rfl) | rfl <;> revert hb <;> decide

lemma isInline_of_isBare {c : Char} (hb : isBare c = true) : isInline c = true := by
  have hf : c ≠ '\ufeff' := by
    rintro rfl
    revert hb
    decide
  have hn : isBreak c = false := by
    by_cases hc : c = ' '
    · rw [hc]
      decide
    · exact (isGapOrEnd_eq_false_iff.1 (isGapOrEnd_of_isBare hb hc)).1
  simp [isInline, hf, hn]

namespace QuotedForm

variable {w cs : List Char} {c : Char}

/-- Only spaces are written with a gap in front. -/
lemma solid_or_spaces (hw : QuotedForm true w cs) :
    Solid w ∨ ∃ g w' cs', w = g ++ w' ∧ cs = g ++ cs' ∧ (∀ c ∈ g, c = ' ') ∧ g ≠ [] ∧ Solid w' ∧
      QuotedForm true w' cs' := by
  have solid {x : Char} {v : List Char} (h : isGapOrEnd x = false) : Solid (x :: v) := by
    rintro y ⟨⟩
    exact h
  cases hw with
  | nil => exact .inl (by simp [Solid])
  | plain hc _ =>
    simp only [isQuotedPlain, Bool.not_eq_true', Bool.or_eq_false_iff] at hc
    exact .inl (solid hc.2)
  | mark hc _ =>
    obtain rfl := (if_pos rfl).mp hc
    exact .inl (solid (by decide))
  | apostrophe => contradiction
  | escape => exact .inl (solid (by decide))
  | fold => exact .inl (solid (by decide))
  | spaces hg hb hs hw => exact .inr ⟨_, _, _, rfl, rfl, hb, hg, hs, hw⟩
  | breaks => contradiction

lemma space (hw : QuotedForm true w cs) : QuotedForm true (' ' :: w) (' ' :: cs) := by
  rcases hw.solid_or_spaces with hs | ⟨g, w', cs', rfl, rfl, hb, hg, hs, hw'⟩
  · exact QuotedForm.spaces (g := [' ']) (by simp) (by simp) hs hw
  · exact QuotedForm.spaces (g := ' ' :: g) (by simp) (by simpa using hb) hs hw'

lemma bare (hc : isBare c = true) (hw : QuotedForm true w cs) :
    QuotedForm true (c :: w) (c :: cs) := by
  by_cases hs : c = ' '
  · rw [hs]
    exact hw.space
  by_cases ha : c = '\''
  · exact QuotedForm.mark (by simpa using ha) hw
  · have hq : c ≠ '"' ∧ c ≠ '\\' := by
      constructor <;> rintro rfl <;> revert hc <;> decide
    exact QuotedForm.plain (by simp [isQuotedPlain, ha, hq, isGapOrEnd_of_isBare hc hs]) hw

lemma solid_of_ne (hw : QuotedForm true w (c :: cs)) (hc : c ≠ ' ') : Solid w := by
  rcases hw.solid_or_spaces with hs | ⟨g, w', cs', -, he, hb, hg, -⟩
  · exact hs
  · obtain ⟨x, g, rfl⟩ := List.exists_cons_of_ne_nil hg
    obtain ⟨rfl, -⟩ := List.cons.inj he
    exact absurd (hb c List.mem_cons_self) hc

lemma escaped (c : Char) (hw : QuotedForm true w cs) :
    QuotedForm true (Yaml.escape c ++ w) (c :: cs) := by
  obtain ⟨e, he, hc⟩ := exists_escape c
  rw [he]
  exact QuotedForm.escape rfl hc hw

lemma foldSpace (hw : QuotedForm true w cs) :
    QuotedForm true ('\\' :: '\n' :: ' ' :: ' ' :: '\\' :: ' ' :: w) (' ' :: cs) := by
  refine QuotedForm.fold rfl ?_ (QuotedForm.escape rfl (escapes_short (by decide)) hw)
  rintro x ⟨⟩
  decide

end QuotedForm

lemma Pen.fold_out {p : Pen} (h : 2 ≤ p.column) (next : Option Char) :
    (p.fold 2 next).out.toList = p.out.toList ++
        ('\\' :: '\n' :: ' ' :: ' ' :: if next = some ' ' then ['\\'] else []) ∧
      (p.fold 2 next).column ≤ 3 := by
  obtain ⟨ho, hc⟩ := indent_out (p := p.write ['\\']) (.inr (by simpa using h))
  unfold fold settle
  simp only [beq_iff_eq]
  split_ifs <;> simp [ho, hc]

/-- What is written for the characters of a text in double quotes. -/
structure DoubleSpelling (split : Bool) (cs w : List Char) : Prop where
  form : QuotedForm true w cs
  readable : ∀ c ∈ w, isReadable c = true
  exact : split = false → w = cs.flatMap doubleChar

namespace DoubleSpelling

variable {split : Bool} {cs w : List Char} {c : Char}

lemma bare (hc : isBare c = true) (h : DoubleSpelling split cs w) :
    DoubleSpelling split (c :: cs) (c :: w) where
  form := h.form.bare hc
  readable := List.forall_mem_cons.2 ⟨isReadable_of_isBare hc, h.readable⟩
  exact hs := by simp [h.exact hs, doubleChar, hc]

lemma escaped (hc : isBare c = false) (h : DoubleSpelling split cs w) :
    DoubleSpelling split (c :: cs) (escape c ++ w) where
  form := h.form.escaped c
  readable := List.forall_mem_append.2
    ⟨fun x hx => isReadable_of_isPrintable (isPrintable_escape c x hx), h.readable⟩
  exact hs := by simp [h.exact hs, doubleChar, hc]

lemma fold (h : DoubleSpelling true (c :: cs) w) (hc : c ≠ ' ') :
    DoubleSpelling true (c :: cs) ('\\' :: '\n' :: ' ' :: ' ' :: w) where
  form := QuotedForm.fold rfl (h.form.solid_of_ne hc) h.form
  readable := by simpa [isReadable] using h.readable
  exact := by simp

lemma foldSpace (h : DoubleSpelling true cs w) :
    DoubleSpelling true (' ' :: cs) ('\\' :: '\n' :: ' ' :: ' ' :: '\\' :: ' ' :: w) where
  form := h.form.foldSpace
  readable := by simpa [isReadable] using h.readable
  exact := by simp

end DoubleSpelling

/-- Near the beginning of a line no fold comes before a character. -/
lemma Pen.doubleChars_near {split first : Bool} {p : Pen} {c : Char} {rest : List Char}
    (hc : isBare c = true) (hp : p.column ≤ width) :
    p.doubleChars 2 split first [] (c :: rest) = p.doubleChars 2 split false [c] rest := by
  rw [doubleChars, if_pos hc, if_neg]
  · rfl
  · simp [hp]

/-- The characters that are held back are written first. -/
lemma Pen.doubleChars_spelling (split first : Bool) (held : List Char) (p : Pen) (cs : List Char) :
    ∃ w, (p.doubleChars 2 split first held cs).out.toList = p.out.toList ++ (held ++ w) ∧
      DoubleSpelling split cs w := by
  induction hn : cs.length using Nat.strong_induction_on generalizing first held p cs with
  | _ n ih =>
    have ih := fun first held p (ds : List Char) (hd : ds.length < n) =>
      ih ds.length hd first held p ds rfl
    cases cs with
    | nil => exact ⟨[], by simp [doubleChars], .nil, by simp, by simp⟩
    | cons c rest =>
      have hrest : rest.length < n := by simp [← hn]
      unfold doubleChars
      dsimp only
      split_ifs with hbare hfold hfold
      · -- The line is folded before a character that is written as it is.
        simp only [Bool.and_eq_true, decide_eq_true_eq] at hfold
        obtain ⟨⟨⟨⟨rfl, -⟩, -⟩, -⟩, hcol⟩ := hfold
        obtain ⟨w, hw, hs⟩ := ih false [c] ((p.write held).fold 2 (some c)) rest hrest
        obtain ⟨ho, -⟩ := fold_out (p := p.write held) (by simp [width] at hcol ⊢; omega) (some c)
        by_cases hc : c = ' '
        · subst hc
          exact ⟨_, by simp [hw, ho], hs.foldSpace⟩
        · exact ⟨_, by simp [hw, ho, hc], (hs.bare hbare).fold hc⟩
      · obtain ⟨w, hw, hs⟩ := ih false (held ++ [c]) p rest hrest
        exact ⟨c :: w, by simp [hw], hs.bare hbare⟩
      · -- The line is folded after an escape; a space that comes next is escaped too.
        simp only [Bool.and_eq_true, decide_eq_true_eq] at hfold
        obtain ⟨⟨⟨rfl, -⟩, hne⟩, hcol⟩ := hfold
        cases rest with
        | nil => simp at hne
        | cons d rest =>
          obtain ⟨ho, hcol'⟩ := fold_out (p := (p.write held).write (escape c))
            (by simp only [width] at hcol; omega) (some d)
          by_cases hd : d = ' '
          · subst hd
            obtain ⟨w, hw, hs⟩ := ih false [' ']
              (((p.write held).write (escape c)).fold 2 (some ' ')) rest
              (by simp only [List.length_cons] at hrest; omega)
            refine ⟨_, ?_, hs.foldSpace.escaped (by simpa using hbare)⟩
            rw [List.head?_cons, doubleChars_near rfl (hcol'.trans (by decide)), hw, ho]
            simp
          · obtain ⟨w, hw, hs⟩ := ih false []
              (((p.write held).write (escape c)).fold 2 (some d)) (d :: rest) hrest
            exact ⟨_, by simp [hw, ho, hd], (hs.fold hd).escaped (by simpa using hbare)⟩
      · obtain ⟨w, hw, hs⟩ := ih false [] ((p.write held).write (escape c)) rest hrest
        exact ⟨escape c ++ w, by simp [hw], hs.escaped (by simpa using hbare)⟩

/-! ### Plain texts -/

/-- The runs of a plain text: words with spaces between them. -/
inductive PlainRuns : List (RunKind × List Char) → Prop
  | word {u : List Char} (hu : IsPlainWord u) : PlainRuns [(.other, u)]
  | cons {u g : List Char} {rs : List (RunKind × List Char)} (hu : IsPlainWord u) (hg : g ≠ [])
      (hb : ∀ c ∈ g, c = ' ') (hrs : PlainRuns rs) :
      PlainRuns ((.other, u) :: (.spaces, g) :: rs)

lemma innerMarked_of_append {a b : List Char} (h : innerMarked (a ++ b) = false) :
    innerMarked b = false := by
  induction a with
  | nil => exact h
  | cons x a ih =>
    refine ih ?_
    cases hab : a ++ b with
    | nil => rfl
    | cons y rest =>
      rw [List.cons_append, hab] at h
      simp only [innerMarked, Bool.or_eq_false_iff] at h
      exact h.2

/-- No colon stands before a gap, after the first character of a text with no marks inside. -/
lemma getLast?_ne_of_innerMarked {x : Char} {v t : List Char}
    (ht : isGapOrEnd (t.headD endMark) = true) (hm : innerMarked (x :: (v ++ t)) = false) :
    v.getLast? ≠ some ':' := by
  induction v generalizing x with
  | nil => simp
  | cons d v ih =>
    have htail : innerMarked (d :: (v ++ t)) = false := innerMarked_of_append (a := [x]) hm
    cases v with
    | nil =>
      intro hlast
      obtain rfl : d = ':' := by simpa using hlast
      simp [innerMarked, ht, -List.headD_eq_head?_getD] at hm
    | cons d' v => simpa using ih htail

/-- A word after a space, in a text with no marks inside, is a word of a plain scalar. -/
lemma isPlainWord_of_innerMarked {u t : List Char} (hne : u ≠ [])
    (hk : ∀ c ∈ u, RunKind.of c = .other) (ho : ∀ c ∈ u, isOrdinary c = true)
    (hm : innerMarked (' ' :: (u ++ t)) = false) (ht : isGapOrEnd (t.headD endMark) = true) :
    IsPlainWord u where
  ne_nil := hne
  solid c hc := isGapOrEnd_of_other (hk c hc) (ho c hc)
  isInline c hc := by
    have hs := isGapOrEnd_of_other (hk c hc) (ho c hc)
    have hf : c ≠ '\ufeff' := by
      rintro rfl
      have := ho _ hc
      revert this
      decide
    simp [isInline, (isGapOrEnd_eq_false_iff.1 hs).1, hf]
  head_ne := by
    obtain ⟨x, u, rfl⟩ := List.exists_cons_of_ne_nil hne
    rintro ⟨⟩
    have hgap : isGapOrEnd ' ' = true := rfl
    simp [innerMarked, hgap] at hm
  last_ne := getLast?_ne_of_innerMarked ht hm

lemma plainRuns_of_innerMarked {rs : List (RunKind × List Char)} (hne : rs ≠ [])
    (hchain : rs.IsChain fun a b => a.1 = .other ↔ b.1 ≠ .other)
    (hhom : ∀ r ∈ rs, r.2 ≠ [] ∧ ∀ c ∈ r.2, RunKind.of c = r.1)
    (hord : ∀ r ∈ rs, ∀ c ∈ r.2, isOrdinary c = true) (hbr : ∀ r ∈ rs, r.1 ≠ .breaks)
    (hhead : ∀ r ∈ rs.head?, r.1 = .other) (hlast : ∀ r ∈ rs.getLast?, r.1 = .other)
    (hm : innerMarked (' ' :: rs.flatMap Prod.snd) = false) : PlainRuns rs := by
  match rs with
  | [] => contradiction
  | [(k, u)] =>
    obtain rfl : k = .other := hhead (k, u) rfl
    have ⟨hu, hk⟩ := hhom _ (List.mem_singleton_self _)
    refine .word (isPlainWord_of_innerMarked (t := []) hu hk (hord _ (List.mem_singleton_self _)) ?_
      rfl)
    simpa using hm
  | [(k, u), (k', g)] =>
    obtain rfl : k = .other := hhead (k, u) rfl
    exact absurd (hlast (k', g) rfl) ((List.isChain_cons_cons.1 hchain).1.1 rfl)
  | (k, u) :: (k', g) :: r :: rs =>
    obtain rfl : k = .other := hhead (k, u) rfl
    have ⟨hkk', hchain'⟩ := List.isChain_cons_cons.1 hchain
    have hk' : k' ≠ .other := hkk'.1 rfl
    obtain rfl : k' = .spaces := by
      have : k' ≠ .breaks := hbr (k', g) (by simp)
      cases k' <;> simp_all
    have hchain'' : (r :: rs).IsChain _ := hchain'.tail
    have hr : r.1 = .other := other_of_isChain hchain' hk' r rfl
    have ⟨⟨hu, huk⟩, hhom'⟩ := List.forall_mem_cons.1 hhom
    have ⟨⟨hg, hgk⟩, hhom''⟩ := List.forall_mem_cons.1 hhom'
    have ⟨huo, hord'⟩ := List.forall_mem_cons.1 hord
    have hgs : ∀ c ∈ g, c = ' ' := fun c hc => eq_space_of_spaces (hgk c hc)
    -- The text after the spaces is looked at from the last of them.
    obtain ⟨g', x, rfl⟩ := (List.eq_nil_or_concat' g).resolve_left hg
    obtain rfl : x = ' ' := hgs x (by simp)
    have hm' : innerMarked (' ' :: (r :: rs).flatMap Prod.snd) = false := by
      refine innerMarked_of_append (a := ' ' :: u ++ g') ?_
      simpa using hm
    have hrest := plainRuns_of_innerMarked (by simp) hchain'' hhom''
      (List.forall_mem_cons.1 hord').2 (fun r hr => hbr r (by simp [hr])) (by simpa using hr)
      (by simpa using hlast) hm'
    refine .cons (isPlainWord_of_innerMarked (t := g' ++ ' ' :: (r :: rs).flatMap Prod.snd) hu
      huk huo (by simpa using hm) ?_) hg hgs hrest
    cases g' with
    | nil => rfl
    | cons y g' =>
      rw [List.cons_append, List.headD_cons, hgs y (by simp)]
      rfl

/-- What is written for the runs of a plain text. -/
structure PlainSpelling (split : Bool) (rs : List (RunKind × List Char)) (w : List Char) :
    Prop where
  form : PlainForm w (rs.flatMap Prod.snd)
  mem : ∀ c ∈ w, c ∈ rs.flatMap Prod.snd ∨ c = '\n' ∨ c = ' '
  exact : split = false → w = rs.flatMap Prod.snd

namespace PlainSpelling

variable {split : Bool} {rs : List (RunKind × List Char)} {u g w : List Char}

lemma word (hu : IsPlainWord u) : PlainSpelling split [(.other, u)] u where
  form := by simpa using PlainForm.word hu
  mem := by simp +contextual
  exact := by simp

lemma spaces (hu : IsPlainWord u) (hg : g ≠ []) (hb : ∀ c ∈ g, c = ' ')
    (h : PlainSpelling split rs w) :
    PlainSpelling split ((.other, u) :: (.spaces, g) :: rs) (u ++ (g ++ w)) where
  form := PlainForm.spaces hu hg hb h.form
  mem := by
    intro c hc
    simp only [List.mem_append, List.flatMap_cons] at hc ⊢
    rcases hc with hc | hc | hc
    · exact .inl (.inl hc)
    · exact .inl (.inr (.inl hc))
    · rcases h.mem c hc with h | h
      · exact .inl (.inr (.inr h))
      · exact .inr h
  exact hs := by simp [h.exact hs]

lemma fold (hu : IsPlainWord u) (h : PlainSpelling true rs w) :
    PlainSpelling true ((.other, u) :: (.spaces, [' ']) :: rs) (u ++ '\n' :: ' ' :: ' ' :: w) where
  form := PlainForm.fold hu h.form
  mem := by
    intro c hc
    simp only [List.mem_append, List.mem_cons, List.flatMap_cons] at hc ⊢
    rcases hc with hc | hc | hc | hc | hc
    · exact .inl (.inl hc)
    · exact .inr (.inl hc)
    · exact .inr (.inr hc)
    · exact .inr (.inr hc)
    · rcases h.mem c hc with h | h
      · exact .inl (.inr (.inr h))
      · exact .inr h
  exact := by simp

end PlainSpelling

lemma Pen.plainRuns_spelling (split : Bool) {rs : List (RunKind × List Char)} (h : PlainRuns rs)
    (p : Pen) :
    ∃ w, (p.settle.plainRuns 2 split rs).out.toList = p.out.toList ++ w ∧
      PlainSpelling split rs w ∧ (p.settle.plainRuns 2 split rs).Settled := by
  induction h generalizing p with
  | @word u hu =>
    refine ⟨u, ?_, .word hu, ?_⟩
    · simp [plainRuns]
    · simp [plainRuns, settle, write, Settled]
  | @cons u g rs hu hg hb hrs ih =>
    simp only [plainRuns]
    split_ifs with h₁ h₂ h₂
    · simp at h₁
    · simp at h₁
    · -- The line has gone beyond the width after the word.
      simp only [Bool.and_eq_true, beq_iff_eq, decide_eq_true_eq] at h₂
      obtain ⟨⟨⟨-, hlen⟩, hcol⟩, rfl⟩ := h₂
      obtain ⟨x, rfl⟩ := List.length_eq_one_iff.1 hlen
      obtain rfl := hb x (by simp)
      obtain ⟨w, hw, hs, hq⟩ := ih ((p.settle.write u).indent 2)
      obtain ⟨ho, -⟩ := indent_out (p := p.settle.write u) (.inl rfl)
      exact ⟨_, by simp [hw, ho], hs.fold hu, hq⟩
    · obtain ⟨w, hw, hs, hq⟩ := ih ((p.write u).write g)
      exact ⟨_, hw.trans (by simp), hs.spaces hu hg hb, hq⟩

/-! ### Styles -/

section Styles

variable {isKey : Bool} {s : String}

lemma traits_of_plain (h : Style.ofText isKey s = .plain) :
    ScalarKind.ofPlain s = .text ∧ (Traits.ofChars s.toList).edged = false ∧
      (Traits.ofChars s.toList).breakSpace = false ∧ (Traits.ofChars s.toList).spaceBreak = false ∧
      (Traits.ofChars s.toList).special = false ∧ (Traits.ofChars s.toList).multiline = false ∧
      (Traits.ofChars s.toList).indicator = false := by
  unfold Style.ofText at h
  dsimp only at h
  split_ifs at h with hp
  simpa [and_assoc] using hp

lemma traits_of_single (h : Style.ofText isKey s = .single) :
    (Traits.ofChars s.toList).breakSpace = false ∧ (Traits.ofChars s.toList).spaceBreak = false ∧
      (Traits.ofChars s.toList).special = false := by
  unfold Style.ofText at h
  dsimp only at h
  split_ifs at h with hp hs
  simp only [Bool.and_eq_true, Bool.not_eq_true'] at hs
  exact ⟨hs.1.1.1, hs.1.1.2, hs.1.2⟩

/-- The style of a text on one line is the same for keys and values. -/
lemma ofText_eq_of_not_foldable (h : s.toList.any isFoldable = false) :
    Style.ofText isKey s = Style.ofText false s := by
  have hm : (Traits.ofChars s.toList).multiline = false := h
  simp [Style.ofText, hm]

end Styles

lemma isOrdinary_of_special {cs : List Char} (h : (Traits.ofChars cs).special = false) :
    ∀ r ∈ runs cs, ∀ c ∈ r.2, isOrdinary c = true := by
  intro r hr c hc
  have hmem : c ∈ cs := by
    rw [← flatMap_runs cs]
    exact List.mem_flatMap.2 ⟨r, hr, hc⟩
  simpa using List.any_eq_false.1 h c hmem

lemma ne_breaks_of_multiline {cs : List Char} (h : (Traits.ofChars cs).multiline = false) :
    ∀ r ∈ runs cs, r.1 ≠ .breaks := by
  intro r hr hb
  obtain ⟨hne, hk⟩ := runs_homogeneous cs r hr
  obtain ⟨c, t, hc⟩ := List.exists_cons_of_ne_nil hne
  have hmem : c ∈ cs := by
    rw [← flatMap_runs cs]
    exact List.mem_flatMap.2 ⟨r, hr, by simp [hc]⟩
  have hf := List.any_eq_false.1 h c hmem
  have := hk c (by simp [hc])
  rw [hb, RunKind.of, if_neg hf] at this
  split_ifs at this

lemma RunKind.of_eq_other {c : Char} (hc : (c == ' ' || isFoldable c) = false) :
    RunKind.of c = .other := by
  simp only [Bool.or_eq_false_iff] at hc
  simp [RunKind.of, hc.1, hc.2]

/-- The last run of a text is of the kind of its last character. -/
lemma of_getLast?_runs {cs : List Char} {r : RunKind × List Char} (hr : r ∈ (runs cs).getLast?) :
    ∃ front x, cs = front ++ [x] ∧ r.1 = RunKind.of x := by
  obtain ⟨rs, hrs⟩ := List.getLast?_eq_some_iff.1 hr
  obtain ⟨hne, hk⟩ := runs_homogeneous _ r (List.mem_of_getLast? hr)
  obtain ⟨l, x, hx⟩ := (List.eq_nil_or_concat' r.2).resolve_left hne
  refine ⟨rs.flatMap Prod.snd ++ l, x, ?_, (hk x (by simp [hx])).symm⟩
  rw [← flatMap_runs cs, hrs, List.flatMap_append, List.flatMap_singleton, hx, List.append_assoc]

/-- A text without marks has none after a space either. -/
lemma innerMarked_space {cs : List Char} (hstart : startsMarked cs = false)
    (hinner : innerMarked cs = false) : innerMarked (' ' :: cs) = false := by
  cases cs with
  | nil => rfl
  | cons c rest =>
    simp only [startsMarked, Bool.or_eq_false_iff, Bool.and_eq_false_iff] at hstart
    have hhash : c ≠ '#' := by
      rintro rfl
      simp at hstart
    have hcolon : (c == ':' && isGapOrEnd (rest.headD endMark)) = false := by
      rcases hstart.2 with hg | hc
      · rw [hg, Bool.and_false]
      · rw [hc.1.2, Bool.false_and]
    simp [innerMarked, hinner, hhash, hcolon, -List.headD_eq_head?_getD]

/-- The runs of a text that is written plainly. -/
lemma plainRuns_runs {isKey : Bool} {s : String} (h : Style.ofText isKey s = .plain) :
    PlainRuns (runs s.toList) := by
  obtain ⟨hkind, hedged, hbs, hsb, hspecial, hmulti, hind⟩ := traits_of_plain h
  have hne : s.toList ≠ [] := by
    intro he
    rw [String.toList_eq_nil_iff.1 he] at hkind
    revert hkind
    decide
  generalize s.toList = cs at *
  simp only [Traits.ofChars, Bool.or_eq_false_iff] at hedged hind
  obtain ⟨c, rest, rfl⟩ := List.exists_cons_of_ne_nil hne
  obtain ⟨ds, more, hruns⟩ := exists_runs_cons c rest
  refine plainRuns_of_innerMarked (by simp [hruns]) (runs_isChain hbs hsb) (runs_homogeneous _)
    (isOrdinary_of_special hspecial) (ne_breaks_of_multiline hmulti) ?_ ?_ ?_
  · rw [hruns]
    rintro r ⟨⟩
    exact RunKind.of_eq_other (by simpa using hedged.1)
  · intro r hr
    obtain ⟨front, x, hlast, hk⟩ := of_getLast?_runs hr
    rw [hk]
    refine RunKind.of_eq_other ?_
    rw [hlast] at hedged
    simpa using hedged.2
  · rw [flatMap_runs]
    exact innerMarked_space hind.1.1.1 hind.1.1.2

/-! ### Texts -/

/-- The mark around a quoted scalar. -/
def quoteMark (double : Bool) : Char :=
  if double then '"' else '\''

/-- The characters of a scalar, the text that they spell, and whether the scalar is plain. -/
inductive ScalarForm : List Char → List Char → Bool → Prop
  | plain {w cs : List Char} (hf : PlainForm w cs) (hs : startsMarked w = false)
      (hd : "---".toList.isPrefixOf w = false) (hp : "...".toList.isPrefixOf w = false) :
      ScalarForm w cs true
  | quoted {w cs : List Char} (double : Bool) (hf : QuotedForm double w cs) :
      ScalarForm (quoteMark double :: (w ++ [quoteMark double])) cs false

/-- What a text is read as after it has been written. -/
def reread (s : String) : String :=
  if Style.ofText false s = .single then String.ofList ((runs s.toList).flatMap readRun) else s

/-- The spelling of a text on one line. -/
def Style.spell : Style → List Char → List Char
  | .plain, cs => cs
  | .single, cs => '\'' :: (cs.flatMap singleChar ++ ['\''])
  | .double, cs => '"' :: (cs.flatMap doubleChar ++ ['"'])

/-- What is written for a text. -/
structure TextSpelling (isKey : Bool) (s : String) (w : List Char) (plain : Bool) : Prop where
  form : ScalarForm w (reread s).toList plain
  readable : ∀ c ∈ w, isReadable c = true
  kind : plain = true → ScalarKind.ofPlain (reread s) = .text
  exact : isKey = true → w = (Style.ofText isKey s).spell s.toList

lemma isPrefixOf_append {q w t : List Char} (ht : ∀ c ∈ t.head?, c ∉ q) :
    q.isPrefixOf (w ++ t) = q.isPrefixOf w := by
  induction q generalizing w with
  | nil => simp
  | cons a q ih =>
    cases w with
    | nil =>
      cases t with
      | nil => rfl
      | cons c t =>
        have : a ≠ c := by
          rintro rfl
          exact ht a rfl List.mem_cons_self
        simp [List.isPrefixOf, this]
    | cons b w => simp [List.isPrefixOf, ih fun c hc hq => ht c hc (List.mem_cons_of_mem _ hq)]

/-- A spelling of a plain text begins with its first word. -/
lemma PlainForm.exists_word {w cs : List Char} (h : PlainForm w cs) :
    ∃ u w' cs', IsPlainWord u ∧ w = u ++ w' ∧ cs = u ++ cs' ∧
      (∀ c ∈ w'.head?, c = ' ' ∨ c = '\n') ∧ (∀ c ∈ cs'.head?, c = ' ') ∧ (w' = [] ↔ cs' = []) := by
  cases h with
  | word hu => exact ⟨w, [], [], hu, by simp⟩
  | @spaces u g w cs hu hg hb hw =>
    obtain ⟨x, g, rfl⟩ := List.exists_cons_of_ne_nil hg
    refine ⟨u, _, _, hu, rfl, rfl, ?_, ?_, by simp⟩
    · rintro c ⟨⟩
      exact .inl (hb _ List.mem_cons_self)
    · rintro c ⟨⟩
      exact hb _ List.mem_cons_self
  | @fold u w cs hu hw => exact ⟨u, _, _, hu, rfl, rfl, by simp, by simp, by simp⟩

lemma PlainForm.startsMarked_eq {w cs : List Char} (h : PlainForm w cs) :
    startsMarked w = startsMarked cs := by
  obtain ⟨u, w', cs', hu, rfl, rfl, hw, hcs, hnil⟩ := h.exists_word
  obtain ⟨x, u, rfl⟩ := List.exists_cons_of_ne_nil hu.ne_nil
  have hgap : isGapOrEnd ((u ++ w').headD endMark) = isGapOrEnd ((u ++ cs').headD endMark) := by
    cases u with
    | cons y u => rfl
    | nil =>
      cases w' with
      | nil => rw [hnil.1 rfl]
      | cons a w' =>
        cases cs' with
        | nil => simp at hnil
        | cons b cs' =>
          rw [List.nil_append, List.nil_append, List.headD_cons, List.headD_cons, hcs b rfl]
          rcases hw a rfl with rfl | rfl <;> rfl
  simp only [List.cons_append, startsMarked, hgap]

lemma PlainForm.isPrefixOf_eq {w cs q : List Char} (h : PlainForm w cs)
    (hq : ∀ c ∈ q, isGapOrEnd c = false) : q.isPrefixOf w = q.isPrefixOf cs := by
  obtain ⟨u, w', cs', hu, rfl, rfl, hw, hcs, -⟩ := h.exists_word
  have gap {c : Char} (hc : c = ' ' ∨ c = '\n') : c ∉ q := by
    intro hmem
    have := hq c hmem
    rcases hc with rfl | rfl <;> revert this <;> decide
  rw [isPrefixOf_append fun c hc => gap (hw c hc),
    isPrefixOf_append fun c hc => gap (.inl (hcs c hc))]

section Texts

variable {isKey : Bool} {s : String}

lemma reread_of_ne_single (h : Style.ofText false s ≠ .single) : reread s = s :=
  if_neg h

lemma Pen.plain_spelling (hp : Style.ofText isKey s = .plain) (hr : reread s = s) (p : Pen) :
    ∃ w, TextSpelling isKey s w true ∧ (p.plain 2 (!isKey) s.toList).Settled ∧
      (p.plain 2 (!isKey) s.toList).out.toList =
        p.out.toList ++ ((if p.spaced then [] else [' ']) ++ w) := by
  obtain ⟨hkind, -, -, -, hspecial, -, hind⟩ := traits_of_plain hp
  have hruns := plainRuns_runs hp
  have hne : s.toList.isEmpty = false := by
    cases hs : s.toList with
    | nil =>
      rw [hs] at hruns
      cases hruns
    | cons c cs => rfl
  obtain ⟨w, hw, hs, hset⟩ := plainRuns_spelling (!isKey) hruns
    (if p.spaced then p else p.write [' '])
  have hform : PlainForm w s.toList := flatMap_runs s.toList ▸ hs.form
  simp only [Traits.ofChars, Bool.or_eq_false_iff] at hind
  refine ⟨w, ⟨?_, ?_, fun _ => hr.symm ▸ hkind, ?_⟩, ?_, ?_⟩
  · rw [hr]
    refine .plain hform ?_ ?_ ?_
    · rw [hform.startsMarked_eq]
      exact hind.1.1.1
    · rw [hform.isPrefixOf_eq (by simp [isGapOrEnd, isSpaceOrEnd, isBreakOrEnd, isBreak, endMark])]
      exact hind.1.2
    · rw [hform.isPrefixOf_eq (by simp [isGapOrEnd, isSpaceOrEnd, isBreakOrEnd, isBreak, endMark])]
      exact hind.2
  · intro c hc
    rcases hs.mem c hc with hc | rfl | rfl
    · rw [flatMap_runs] at hc
      exact isReadable_of_isOrdinary (by simpa using List.any_eq_false.1 hspecial c hc)
    · rfl
    · rfl
  · rintro rfl
    rw [hs.exact rfl, flatMap_runs, hp, Style.spell]
  · rwa [plain, hne]
  · rw [plain, hne]
    refine hw.trans ?_
    split_ifs <;> simp

lemma Pen.single_spelling (hp : Style.ofText isKey s = .single)
    (hr : reread s = String.ofList ((runs s.toList).flatMap readRun))
    (hk : isKey = true → s.toList.any isFoldable = false) (p : Pen) :
    ∃ w, TextSpelling isKey s w false ∧ (p.single 2 (!isKey) s.toList).Settled ∧
      (p.single 2 (!isKey) s.toList).out.toList =
        p.out.toList ++ ((if p.spaced then [] else [' ']) ++ w) := by
  obtain ⟨hbs, hsb, hspecial⟩ := traits_of_single hp
  obtain ⟨w, hw, hs⟩ := singleRuns_spelling (!isKey) (runs_isChain hbs hsb)
    (runs_homogeneous _) (isOrdinary_of_special hspecial) true (p.mark ['\''] true false false)
  refine ⟨'\'' :: (w ++ ['\'']), ⟨?_, ?_, by simp, ?_⟩, ?_, ?_⟩
  · rw [hr, String.toList_ofList]
    exact .quoted false hs.form
  · exact List.forall_mem_cons.2 ⟨rfl, List.forall_mem_append.2 ⟨hs.readable, by simp [isReadable]⟩⟩
  · rintro rfl
    rw [hs.exact rfl (ne_breaks_of_multiline (hk rfl)), flatMap_runs, hp, Style.spell]
  · simp [single, mark, Settled, write]
  · rw [single, mark_out, hw, mark_out]
    cases p.spaced <;> simp

lemma Pen.double_spelling (hp : Style.ofText isKey s = .double) (hr : reread s = s) (p : Pen) :
    ∃ w, TextSpelling isKey s w false ∧ (p.double 2 (!isKey) s.toList).Settled ∧
      (p.double 2 (!isKey) s.toList).out.toList =
        p.out.toList ++ ((if p.spaced then [] else [' ']) ++ w) := by
  obtain ⟨w, hw, hs⟩ := doubleChars_spelling (!isKey) true [] (p.mark ['"'] true false false)
    s.toList
  refine ⟨'"' :: (w ++ ['"']), ⟨?_, ?_, by simp, ?_⟩, ?_, ?_⟩
  · rw [hr]
    exact .quoted true hs.form
  · exact List.forall_mem_cons.2 ⟨rfl, List.forall_mem_append.2 ⟨hs.readable, by simp [isReadable]⟩⟩
  · rintro rfl
    rw [hs.exact rfl, hp, Style.spell]
  · simp [double, mark, Settled, write]
  · rw [double, mark_out, hw, mark_out]
    cases p.spaced <;> simp

/-- A text is written as a spelling of what it is read as, after a space if none stands there. -/
lemma Pen.text_spelling (isKey : Bool) (s : String)
    (hk : isKey = true → s.toList.any isFoldable = false) (p : Pen) :
    ∃ w plain, TextSpelling isKey s w plain ∧ (p.text 2 isKey s).Settled ∧
      (p.text 2 isKey s).out.toList = p.out.toList ++ ((if p.spaced then [] else [' ']) ++ w) := by
  have hstyle : Style.ofText isKey s = Style.ofText false s := by
    cases isKey with
    | false => rfl
    | true => exact ofText_eq_of_not_foldable (hk rfl)
  unfold text
  cases hs : Style.ofText isKey s with
  | plain =>
    obtain ⟨w, h⟩ := plain_spelling hs (reread_of_ne_single (by simp [← hstyle, hs])) p
    exact ⟨w, true, h⟩
  | single =>
    obtain ⟨w, h⟩ := single_spelling hs (if_pos (by rw [← hstyle, hs])) hk p
    exact ⟨w, false, h⟩
  | double =>
    obtain ⟨w, h⟩ := double_spelling hs (reread_of_ne_single (by simp [← hstyle, hs])) p
    exact ⟨w, false, h⟩

/-- On one line each character of a text takes a column. -/
lemma isInline_spell (hk : s.toList.any isFoldable = false) :
    ∀ x ∈ (Style.ofText isKey s).spell s.toList, isInline x = true := by
  have ordinary (h : (Traits.ofChars s.toList).special = false) :
      ∀ c ∈ s.toList, isInline c = true := by
    intro c hc
    exact isInline_of_isOrdinary (by simpa using List.any_eq_false.1 h c hc)
      (by simpa using List.any_eq_false.1 hk c hc)
  have quoted {q : Char} {f : Char → List Char} (hq : isInline q = true)
      (hf : ∀ c ∈ s.toList, ∀ x ∈ f c, isInline x = true) :
      ∀ x ∈ q :: (s.toList.flatMap f ++ [q]), isInline x = true := by
    refine List.forall_mem_cons.2 ⟨hq, List.forall_mem_append.2 ⟨fun x hx => ?_, by simpa using hq⟩⟩
    obtain ⟨c, hc, hx⟩ := List.mem_flatMap.1 hx
    exact hf c hc x hx
  cases hs : Style.ofText isKey s with
  | plain => exact ordinary (traits_of_plain hs).2.2.2.2.1
  | single =>
    refine quoted (by decide) fun c hc x hx => ?_
    rw [eq_of_mem_singleChar hx]
    exact ordinary (traits_of_single hs).2.2 c hc
  | double =>
    refine quoted (by decide) fun c hc x hx => ?_
    unfold doubleChar at hx
    split_ifs at hx with hb
    · rw [List.mem_singleton.1 hx]
      exact isInline_of_isBare hb
    · exact isInline_of_isPrintable (isPrintable_escape c x hx)

end Texts

/-! ### Texts that are read as others -/

/-- A next-line character is written in single quotes, where it is read as something else. -/
def Mangled (s : String) : Prop :=
  Style.ofText false s = .single ∧ '\u0085' ∈ s.toList

instance (s : String) : Decidable (Mangled s) :=
  inferInstanceAs (Decidable (_ ∧ _))

lemma breakText_of_ne {c : Char} (hf : isFoldable c = true) (hc : c ≠ '\u0085') :
    breakText c = [c] := by
  simp only [isFoldable, Bool.or_eq_true, beq_iff_eq, hc, or_false] at hf
  rcases hf with (rfl | rfl) | rfl <;> rfl

lemma readBreaks_spelledBreaks {bs : List Char} (hf : ∀ c ∈ bs, isFoldable c = true)
    (hc : '\u0085' ∉ bs) : readBreaks (Pen.spelledBreaks bs) = bs := by
  have text {more : List Char} (h : ∀ c ∈ more, c ∈ bs) : more.flatMap breakText = more := by
    rw [List.flatMap_congr fun c hm =>
      breakText_of_ne (hf c (h c hm)) fun he => hc (he ▸ h c hm), List.flatMap_singleton']
  cases bs with
  | nil => rfl
  | cons b more =>
    have hb := breakText_of_ne (hf b List.mem_cons_self) fun he => hc (he ▸ List.mem_cons_self)
    have hmore := text fun c => List.mem_cons_of_mem b
    unfold Pen.spelledBreaks
    split_ifs with h
    · rw [readBreaks, text fun c hm => hm]
      rfl
    · have : b ≠ '\n' := by simpa using h
      simp [readBreaks, hb, hmore, foldBreaks, this]

lemma not_mem_readBreaks (bs : List Char) : '\u0085' ∉ readBreaks bs := by
  have text (c : Char) : '\u0085' ∉ breakText c := by
    unfold breakText
    split_ifs with h
    · rw [List.mem_singleton]
      rintro rfl
      revert h
      decide
    · decide
  cases bs with
  | nil => simp [readBreaks]
  | cons b more =>
    have hmore : '\u0085' ∉ more.flatMap breakText := by
      simp only [List.mem_flatMap, not_exists, not_and]
      exact fun c _ => text c
    rw [readBreaks, foldBreaks]
    split_ifs
    · rw [List.mem_append]
      exact not_or.2 ⟨text b, hmore⟩
    · decide
    · exact hmore

lemma foldable_of_mem_runs {cs : List Char} {r : RunKind × List Char} (hr : r ∈ runs cs) :
    ∀ c ∈ r.2, isFoldable c = true ↔ r.1 = .breaks := by
  intro c hc
  rw [← (runs_homogeneous cs r hr).2 c hc, RunKind.of]
  split_ifs with hs hf
  · obtain rfl := beq_iff_eq.1 hs
    decide
  · simp [hf]
  · simp [hf]

lemma reread_of_not_mangled {s : String} (h : ¬ Mangled s) : reread s = s := by
  unfold reread
  split_ifs with hs
  · have hn : '\u0085' ∉ s.toList := fun hc => h ⟨hs, hc⟩
    have hrun : ∀ r ∈ runs s.toList, readRun r = r.2 := by
      intro r hr
      unfold readRun
      split_ifs with hb
      · refine readBreaks_spelledBreaks (fun c hc => (foldable_of_mem_runs hr c hc).2 hb)
          fun hc => ?_
        rw [← flatMap_runs s.toList] at hn
        exact hn (List.mem_flatMap.2 ⟨r, hr, hc⟩)
      · rfl
    rw [List.flatMap_congr hrun, flatMap_runs, String.ofList_toList]
  · rfl

lemma not_mem_reread {s : String} (h : Mangled s) : '\u0085' ∉ (reread s).toList := by
  rw [reread, if_pos h.1, String.toList_ofList, List.mem_flatMap]
  rintro ⟨r, hr, hc⟩
  unfold readRun at hc
  split_ifs at hc with hb
  · exact not_mem_readBreaks _ hc
  · exact hb ((foldable_of_mem_runs hr _ hc).1 rfl)

/-- No text is read as one that would be read as another. -/
lemma not_mangled_reread (s : String) : ¬ Mangled (reread s) := by
  intro h
  by_cases hs : Mangled s
  · exact not_mem_reread hs h.2
  · exact hs (reread_of_not_mangled hs ▸ h)

end Yaml

end NodeScript
