import Mathlib
import NodeScript.Text.Blank
import NodeScript.Text.Unit

/-!
# Characters and numerals

General facts about texts: a numeral stands for the number that it was written for, a character is
a unit of its own if it is not beyond the units, and digits are no blanks.
-/

namespace NodeScript.Text

/-! ### Numerals -/

lemma ofDigits_concat (b : Nat) (ds : List Nat) (d : Nat) :
    ofDigits b (ds ++ [d]) = ofDigits b ds * b + d := by
  simp [ofDigits]

lemma ofDigits_zeros_append (b k : Nat) (ds : List Nat) :
    ofDigits b (List.replicate k 0 ++ ds) = ofDigits b ds := by
  have hz : ofDigits b (List.replicate k 0) = 0 := by
    induction k with
    | zero => rfl
    | succ k ih => rw [List.replicate_succ', ofDigits_concat, ih, Nat.zero_mul]
  rw [ofDigits, List.foldl_append]
  exact congrArg (fun n => ds.foldl _ n) hz

/-- The digits that a number is written with stand for it. -/
lemma exists_toDigits {b : Nat} (hb : 1 < b) (n : Nat) :
    ∃ ds, (∀ d ∈ ds, d < b) ∧ Nat.toDigits b n = ds.map Nat.digitChar ∧ ofDigits b ds = n := by
  induction n using Nat.strong_induction_on with
  | _ n ih =>
    rw [Nat.toDigits_eq_if hb]
    split_ifs with hn
    · exact ⟨[n], by simpa using hn, rfl, by simp [ofDigits]⟩
    · have hpos : 0 < n := (Nat.zero_lt_of_lt hb).trans_le (Nat.le_of_not_lt hn)
      obtain ⟨ds, hlt, hds, he⟩ := ih (n / b) (Nat.div_lt_self hpos hb)
      refine ⟨ds ++ [n % b], ?_, by simp [hds], ?_⟩
      · rw [List.forall_mem_append, List.forall_mem_singleton]
        exact ⟨hlt, Nat.mod_lt n (Nat.zero_lt_of_lt hb)⟩
      · rw [ofDigits_concat, he, Nat.div_add_mod']

lemma ofDigits_toDigits (n : Nat) :
    ofDigits 10 ((Nat.toDigits 10 n).map fun c => c.toNat - 0x30) = n := by
  have hdigit : ∀ d < 10, (Nat.digitChar d).toNat - 0x30 = d := by decide
  obtain ⟨ds, hlt, hds, he⟩ := exists_toDigits (b := 10) (by decide) n
  have hself : ds.map ((fun c => c.toNat - 0x30) ∘ Nat.digitChar) = ds :=
    (List.map_congr_left fun d hd => hdigit d (hlt d hd)).trans (List.map_id' ds)
  rw [hds, List.map_map, hself, he]

/-- A digit of an upper case hexadecimal numeral. -/
def upperDigit (d : Nat) : Char :=
  (Nat.digitChar d).toUpper

lemma exists_upperHexChars (width n : Nat) :
    ∃ ds, (∀ d ∈ ds, d < 16) ∧ upperHexChars width n = ds.map upperDigit ∧ ofDigits 16 ds = n := by
  obtain ⟨ds, hlt, hds, he⟩ := exists_toDigits (b := 16) (by decide) n
  have hz : Char.toUpper '0' = upperDigit 0 := by decide
  refine ⟨List.replicate (width - (Nat.toDigits 16 n).length) 0 ++ ds, ?_, ?_, ?_⟩
  · intro d hd
    rcases List.mem_append.1 hd with hd | hd
    · rw [List.eq_of_mem_replicate hd]
      decide
    · exact hlt d hd
  · rw [upperHexChars, hexChars, padLeft, List.map_append, List.map_append, List.map_replicate,
      List.map_replicate, hz, hds, List.map_map]
    rfl
  · rw [ofDigits_zeros_append, he]

lemma mapM_hexValue? {ds : List Nat} (h : ∀ d ∈ ds, d < 16) :
    (ds.map upperDigit).mapM hexValue? = some ds := by
  have digit : ∀ d < 16, hexValue? (upperDigit d) = some d := by decide
  induction ds with
  | nil => rfl
  | cons d ds ih =>
    rw [List.map_cons, List.mapM_cons, digit d (h d List.mem_cons_self),
      ih fun d hd => h d (List.mem_cons_of_mem _ hd)]
    rfl

lemma length_upperHexChars {width n : Nat} (hw : 0 < width) (hn : n < 16 ^ width) :
    (upperHexChars width n).length = width := by
  have hl := (Nat.length_toDigits_le_iff (by decide : 1 < 16) hw).2 hn
  simp [upperHexChars, hexChars, padLeft, hl]

/-! ### Units -/

lemma toNat_range (c : Char) : c.toNat < 0xd800 ∨ 0xdfff < c.toNat ∧ c.toNat < 0x110000 :=
  c.valid

lemma isHighUnit_toNat (c : Char) : isHighUnit c.toNat = false := by
  have := toNat_range c
  simp only [isHighUnit, Bool.and_eq_false_iff, decide_eq_false_iff_not]
  omega

lemma charOfUnit_toNat (c : Char) : charOfUnit c.toNat = c := by
  have hl : isLowUnit c.toNat = false := by
    have := toNat_range c
    simp only [isLowUnit, Bool.and_eq_false_iff, decide_eq_false_iff_not]
    omega
  simp [charOfUnit, isHighUnit_toNat, hl]

lemma joinUnits_map_toNat (cs : List Char) : joinUnits (cs.map Char.toNat) = cs := by
  induction cs with
  | nil => rfl
  | cons c cs ih =>
    cases cs with
    | nil => exact congrArg (· :: []) (charOfUnit_toNat c)
    | cons c' cs =>
      rw [List.map_cons, List.map_cons, joinUnits, isHighUnit_toNat, charOfUnit_toNat,
        ← List.map_cons, ih]
      rfl

/-! ### Blanks -/

lemma trim_of_not_blank {s : String} (hs : ∀ c ∈ s.toList, isBlank c = false) : trim s = s := by
  have hdrop : ∀ cs : List Char, (∀ c ∈ cs, isBlank c = false) → cs.dropWhile isBlank = cs := by
    intro cs hcs
    cases cs with
    | nil => rfl
    | cons c cs =>
      rw [List.dropWhile_cons, hcs c List.mem_cons_self]
      rfl
  rw [trim, trimChars, hdrop _ hs, hdrop _ (by simpa using hs), List.reverse_reverse,
    String.ofList_toList]

lemma isBlank_of_isDigit {c : Char} (hc : c.isDigit = true) : isBlank c = false := by
  rw [Char.isDigit, Bool.and_eq_true, decide_eq_true_iff, decide_eq_true_iff] at hc
  have hlow : 48 ≤ c.toNat := UInt32.le_iff_toNat_le.1 hc.1
  have hhigh : c.toNat ≤ 57 := UInt32.le_iff_toNat_le.1 hc.2
  simp only [isBlank, CharSet.contains, blanks, List.any_cons, List.any_nil, Bool.or_false,
    Bool.or_eq_false_iff, Bool.and_eq_false_iff, decide_eq_false_iff_not]
  omega

end NodeScript.Text
