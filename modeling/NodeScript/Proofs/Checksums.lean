import Mathlib
import NodeScript.Checksum

/-!
# Checksums by table and by bits

A checksum is defined bit by bit: an octet goes into the low end of the register, which then is
shifted eight times, and each bit that falls out adds the polynomial. Here this is done on numbers
without a bound, so that it has to be shown that 64 bits are enough.

A shift is linear: it can be taken apart along exclusive or. So eight shifts of a register are those
of its low octet, which the table holds, together with the rest of the register moved down.
-/

namespace NodeScript.Checksum

/-! ### Bit by bit -/

namespace Bitwise

/-- What is done to a register: an octet is taken in, or one bit is shifted out. -/
inductive Step where
  | take (octet : UInt8)
  | shift

/-- Shifts a register by one bit. If the bit that falls out is set, the polynomial is added. -/
def shiftOut (r : Nat) : Nat :=
  if r.testBit 0 then (r >>> 1) ^^^ 0xD800000000000000 else r >>> 1

/-- The register after a step. -/
def Step.apply (r : Nat) : Step → Nat
  | .take octet => r ^^^ octet.toNat
  | .shift => shiftOut r

/-- The steps for one octet. -/
def octetSteps (octet : UInt8) : List Step :=
  .take octet :: List.replicate 8 .shift

/-- The steps for a sequence of octets. -/
def steps (octets : List UInt8) : List Step :=
  octets.flatMap octetSteps

/-- The register at the start, with all of 64 bits set. -/
def start : Nat := 2 ^ 64 - 1

/-- The register after a sequence of octets. -/
def register (octets : List UInt8) : Nat :=
  (steps octets).foldl Step.apply start

/-- All registers on the way, from the one at the start to the one at the end. -/
def registers (octets : List UInt8) : List Nat :=
  (steps octets).scanl Step.apply start

/-- The checksum of a sequence of octets: the complement of the register. -/
def checksum (octets : List UInt8) : Nat :=
  2 ^ 64 - 1 - register octets

/-! ### 64 bits are enough -/

lemma shiftOut_lt {r : Nat} (hr : r < 2 ^ 64) : shiftOut r < 2 ^ 64 := by
  have hhalf : r >>> 1 < 2 ^ 64 := (Nat.shiftRight_le r 1).trans_lt hr
  rw [shiftOut]
  split_ifs
  · exact Nat.xor_lt_two_pow hhalf (by norm_num)
  · exact hhalf

lemma Step.apply_lt {r : Nat} (hr : r < 2 ^ 64) (step : Step) : step.apply r < 2 ^ 64 := by
  cases step with
  | take octet => exact Nat.xor_lt_two_pow hr (octet.toNat_lt.trans (by norm_num))
  | shift => exact shiftOut_lt hr

lemma foldl_lt {r : Nat} (hr : r < 2 ^ 64) (todo : List Step) :
    todo.foldl Step.apply r < 2 ^ 64 :=
  List.foldlRecOn (motive := (· < 2 ^ 64)) todo Step.apply hr fun _ hs step _ => step.apply_lt hs

lemma lt_of_mem_scanl {r : Nat} (hr : r < 2 ^ 64) (todo : List Step) :
    ∀ x ∈ todo.scanl Step.apply r, x < 2 ^ 64 := by
  induction todo generalizing r with
  | nil => simpa using hr
  | cons step todo ih =>
    rw [List.scanl_cons, List.forall_mem_cons]
    exact ⟨hr, ih (step.apply_lt hr)⟩

/-! ### Shifts are linear -/

/-- A shift can be taken apart along exclusive or. -/
lemma shiftOut_xor (a b : Nat) : shiftOut (a ^^^ b) = shiftOut a ^^^ shiftOut b := by
  simp only [shiftOut, Nat.testBit_xor, Nat.shiftRight_xor_distrib]
  cases a.testBit 0 <;> cases b.testBit 0
  · simp
  · simp [Nat.xor_assoc]
  · simp [Nat.xor_right_comm]
  · -- added twice, the polynomial is gone
    have hcancel (x y p : Nat) : (x ^^^ p) ^^^ (y ^^^ p) = x ^^^ y := by
      rw [Nat.xor_right_comm, Nat.xor_assoc, Nat.xor_assoc, Nat.xor_self, Nat.xor_zero]
    simp [hcancel]

lemma shifts_xor (n a b : Nat) : shiftOut^[n] (a ^^^ b) = shiftOut^[n] a ^^^ shiftOut^[n] b := by
  induction n generalizing a b with
  | zero => rfl
  | succ n ih =>
    rw [Function.iterate_succ_apply, shiftOut_xor, ih]
    rfl

/-- A register with a clear bit at its low end is only moved down. -/
lemma shiftOut_two_mul (m : Nat) : shiftOut (2 * m) = m := by
  simp [shiftOut, Nat.shiftRight_eq_div_pow]

lemma shifts_two_pow_mul (n m : Nat) : shiftOut^[n] (2 ^ n * m) = m := by
  induction n generalizing m with
  | zero => simp
  | succ n ih =>
    -- the lowest of the clear bits falls out
    rw [Function.iterate_succ_apply, Nat.pow_succ', Nat.mul_assoc, shiftOut_two_mul, ih]

lemma eq_low_xor_high (n r : Nat) : r = r % 2 ^ n ^^^ 2 ^ n * (r / 2 ^ n) := by
  refine Nat.eq_of_testBit_eq fun i => ?_
  rw [Nat.testBit_xor, Nat.testBit_mod_two_pow, Nat.testBit_two_pow_mul, Nat.testBit_div_two_pow]
  by_cases hi : i < n
  · simp [hi, Nat.not_le_of_lt hi]
  · simp [hi, Nat.le_of_not_lt hi]

/-- Shifts of a register are those of its low end, together with the rest moved down. -/
lemma shifts_eq (n r : Nat) : shiftOut^[n] r = shiftOut^[n] (r % 2 ^ n) ^^^ r / 2 ^ n := by
  conv_lhs => rw [eq_low_xor_high n r]
  rw [shifts_xor, shifts_two_pow_mul]

lemma foldl_octetSteps (r : Nat) (octet : UInt8) :
    (octetSteps octet).foldl Step.apply r = shiftOut^[8] (r ^^^ octet.toNat) :=
  rfl

end Bitwise

/-! ### By table -/

open Bitwise

lemma toNat_bitStep (r : UInt64) : (bitStep r).toNat = shiftOut r.toNat := by
  have hbit : (r &&& 1 == 1) = r.toNat.testBit 0 := by
    rw [Nat.testBit_zero, beq_eq_decide, decide_eq_decide, ← UInt64.toNat_inj, UInt64.toNat_and]
    exact (Nat.and_one_is_mod r.toNat).congr_left
  have hdown : (r >>> 1).toNat = r.toNat >>> 1 := UInt64.toNat_shiftRight r 1
  rw [bitStep, shiftOut, hbit]
  split_ifs
  · rw [UInt64.toNat_xor, hdown]
    rfl
  · exact hdown

lemma toNat_bitSteps (n : Nat) (r : UInt64) : (bitSteps n r).toNat = shiftOut^[n] r.toNat := by
  induction n generalizing r with
  | zero => rfl
  | succ n ih => rw [bitSteps, ih, toNat_bitStep, Function.iterate_succ_apply]

/-- The table holds what eight shifts make of an octet. -/
lemma toNat_table {i : Nat} (hi : i < 256) : (table.getD i 0).toNat = shiftOut^[8] i := by
  have hentry : table.getD i 0 = bitSteps 8 (UInt64.ofNat i) := by
    rw [table, Array.getD_eq_getD_getElem?, Array.getElem?_ofFn, dif_pos hi, Option.getD_some]
  rw [hentry, toNat_bitSteps, UInt64.toNat_ofNat_of_lt' (hi.trans (by norm_num))]

/-- Takes one octet into the register by the table, on numbers without a bound. -/
def tableStep (r : Nat) (octet : UInt8) : Nat :=
  (table.getD ((r ^^^ octet.toNat) &&& 0xff) 0).toNat ^^^ (r >>> 8)

/-- An octet that is taken in by the table is taken in bit by bit. -/
lemma tableStep_eq (r : Nat) (octet : UInt8) :
    tableStep r octet = (octetSteps octet).foldl Step.apply r := by
  have hlow : (r ^^^ octet.toNat) &&& 0xff = (r ^^^ octet.toNat) % 2 ^ 8 :=
    Nat.and_two_pow_sub_one_eq_mod _ 8
  have hindex : (r ^^^ octet.toNat) % 2 ^ 8 < 256 := Nat.mod_lt _ (by norm_num)
  have hhigh : r >>> 8 = (r ^^^ octet.toNat) / 2 ^ 8 := by
    rw [Nat.xor_div_two_pow, Nat.div_eq_of_lt octet.toNat_lt, Nat.xor_zero,
      Nat.shiftRight_eq_div_pow]
  rw [tableStep, hlow, toNat_table hindex, hhigh, foldl_octetSteps, ← shifts_eq]

/-- Nothing is lost in 64 bits. -/
lemma toNat_octetStep (r : UInt64) (octet : UInt8) :
    (octetStep r octet).toNat = tableStep r.toNat octet := by
  rw [octetStep, UInt64.toNat_xor, UInt64.toNat_and, UInt64.toNat_xor, UInt8.toNat_toUInt64,
    UInt64.toNat_shiftRight]
  rfl

lemma foldl_tableStep (octets : List UInt8) : octets.foldl tableStep start = register octets := by
  rw [register, steps, List.foldl_flatMap]
  simp only [← tableStep_eq]

lemma toNat_foldl_octetStep (octets : List UInt8) :
    (octets.foldl octetStep 0xFFFFFFFFFFFFFFFF).toNat = register octets := by
  rw [← foldl_tableStep]
  exact (List.foldl_hom UInt64.toNat fun r octet => (toNat_octetStep r octet).symm).symm

/-- The checksum by the table is the checksum bit by bit. After each number of octets both have the
same register, whether the table is used in 64 bits or on numbers without a bound, and no register
on the way takes more than 64 bits. -/
theorem table_agrees_with_bits (octets : List UInt8) :
    (ofOctets octets).toNat = checksum octets ∧
    (∀ k, ((octets.take k).foldl octetStep 0xFFFFFFFFFFFFFFFF).toNat = register (octets.take k) ∧
      (octets.take k).foldl tableStep start = register (octets.take k) ∧
      register (octets.take k) < 2 ^ 64) ∧
    (∀ r ∈ registers octets, r < 2 ^ 64) ∧
    checksum octets < 2 ^ 64 := by
  refine ⟨?_, fun k => ⟨toNat_foldl_octetStep _, foldl_tableStep _, ?_⟩, ?_, ?_⟩
  · have hones : (0xFFFFFFFFFFFFFFFF : UInt64) = -1 := rfl
    rw [ofOctets, checksum, ← toNat_foldl_octetStep, hones, UInt64.xor_neg_one, UInt64.toNat_not]
    rfl
  · exact foldl_lt (by decide) _
  · exact lt_of_mem_scanl (by decide) _
  · exact (Nat.sub_le _ _).trans_lt (by norm_num)

/-- The digits from one to nine, as octets. -/
def countOctets : List UInt8 :=
  [0x31, 0x32, 0x33, 0x34, 0x35, 0x36, 0x37, 0x38, 0x39]

/-- The checksum of these octets, worked out bit by bit. The other number is the register once the
first octet is taken in. -/
theorem count_agrees_with_bits :
    (ofOctets countOctets).toNat = 0xB90956C775A41001 ∧
      0xFFFFFFFFFFFFFFCE ∈ registers countOctets ∧ 0xFFFFFFFFFFFFFFCE < 2 ^ 64 := by
  obtain ⟨hvalue, -, hlt, -⟩ := table_agrees_with_bits countOctets
  have hmem : 0xFFFFFFFFFFFFFFCE ∈ registers countOctets := by decide +kernel
  exact ⟨hvalue.trans (by decide +kernel), hmem, hlt _ hmem⟩

end NodeScript.Checksum
