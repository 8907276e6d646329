import Mathlib.Algebra.Field.ZMod
import Mathlib.Data.Nat.Size
import Mathlib.Data.ZMod.Basic
import Mathlib.RingTheory.AdjoinRoot
import Mathlib.Tactic.LinearCombination
import MoteLink.Frame.Checksum

/-! The checksum as a division of polynomials over the field with two elements. The register is read
modulo the divisor: a shift multiplies it by the variable, and a byte string adds its own
polynomial. Main statement: `residue_fromStart`. -/

namespace MoteLink.Frame.Checksum
open Polynomial

def coefficient (b : Bool) : ZMod 2 := if b then 1 else 0

/-- Bit `k` of the number is the coefficient of the power `k`. -/
noncomputable def polynomial (n : Nat) : (ZMod 2)[X] :=
  ∑ k ∈ Finset.range n.size, monomial k (coefficient (n.testBit k))

/-- The bits of a byte string, of each byte the most significant first. -/
def bits (data : Bytes) : List Bool :=
  data.flatMap fun b => (List.range 8).map b.toBitVec.getMsbD

/-- The first bit is the coefficient of the highest power. -/
noncomputable def ofBits : List Bool → (ZMod 2)[X]
  | [] => 0
  | b :: rest => monomial rest.length (coefficient b) + ofBits rest

/-- The generator with the bit that falls out. -/
noncomputable def divisor : (ZMod 2)[X] := X ^ 16 + X ^ 12 + X ^ 5 + 1

theorem coefficient_xor (a b : Bool) : coefficient (a ^^ b) = coefficient a + coefficient b := by
  cases a <;> cases b <;> decide

theorem coefficient_injective : Function.Injective coefficient := by
  intro a b h
  cases a <;> cases b <;> first | rfl | exact absurd h (by decide)

theorem coeff_polynomial (n k : Nat) :
    (polynomial n).coeff k = coefficient (n.testBit k) := by
  simp only [polynomial, finsetSum_coeff, coeff_monomial, Finset.sum_ite_eq', Finset.mem_range]
  split_ifs with h
  · rfl
  · have hsmall : n < 2 ^ k := Nat.size_le.1 (Nat.not_lt.1 h)
    rw [Nat.testBit_lt_two_pow hsmall]
    rfl

theorem coeff_word (w : BitVec n) (k : Nat) :
    (polynomial w.toNat).coeff k = coefficient (w.getLsbD k) := by
  rw [coeff_polynomial, BitVec.testBit_toNat]

theorem polynomial_injective : Function.Injective polynomial := by
  intro m n h
  refine Nat.eq_of_testBit_eq fun k => coefficient_injective ?_
  rw [← coeff_polynomial, ← coeff_polynomial, h]

theorem polynomial_xor (m n : Nat) : polynomial (m ^^^ n) = polynomial m + polynomial n := by
  ext k
  simp only [coeff_polynomial, coeff_add, Nat.testBit_xor, coefficient_xor]

theorem polynomial_concat {k low : Nat} (h : low < 2 ^ k) (high : Nat) :
    polynomial (2 ^ k * high + low) = polynomial high * X ^ k + polynomial low := by
  ext i
  rw [coeff_add, coeff_mul_X_pow', coeff_polynomial, coeff_polynomial, coeff_polynomial,
    Nat.testBit_two_pow_mul_add _ h]
  by_cases hi : i < k
  · simp [hi]
  · have hsmall : low < 2 ^ i := h.trans_le (Nat.pow_le_pow_right (by decide) (Nat.not_lt.1 hi))
    simp [hi, Nat.not_lt.1 hi, Nat.testBit_lt_two_pow hsmall, coefficient]

theorem polynomial_zero : polynomial 0 = 0 := by simp [polynomial]

theorem polynomial_shiftLeft (n k : Nat) : polynomial (n <<< k) = polynomial n * X ^ k := by
  have h := polynomial_concat (Nat.two_pow_pos k) n
  rwa [polynomial_zero, add_zero, add_zero, mul_comm, ← Nat.shiftLeft_eq] at h

theorem polynomial_one : polynomial 1 = 1 := by
  simp [polynomial, coefficient]

theorem degree_polynomial_lt {n k : Nat} (h : n < 2 ^ k) : (polynomial n).degree < k := by
  rw [degree_lt_iff_coeff_zero]
  intro i hi
  have hsmall : n < 2 ^ i := h.trans_le (Nat.pow_le_pow_right (by decide) hi)
  rw [coeff_polynomial, Nat.testBit_lt_two_pow hsmall]
  rfl

theorem divisor_eq : divisor = X ^ 16 + polynomial generator.toNat := by
  have hbits : generator.toNat = 1 <<< 12 ^^^ 1 <<< 5 ^^^ 1 := by decide
  rw [hbits, polynomial_xor, polynomial_xor, polynomial_shiftLeft, polynomial_shiftLeft,
    polynomial_one, divisor]
  ring

theorem divisor_monic : divisor.Monic := by
  rw [divisor_eq]
  exact monic_X_pow_add (degree_polynomial_lt generator.isLt)

theorem degree_divisor : divisor.degree = (16 : Nat) := by
  have htail := degree_polynomial_lt generator.isLt
  rw [divisor_eq, degree_add_eq_left_of_degree_lt (by rwa [degree_X_pow]), degree_X_pow]

/-- What falls out of the register is the coefficient of `X ^ 16`. -/
theorem polynomial_shifted (c : BitVec 16) :
    polynomial (c <<< 1).toNat + monomial 16 (coefficient c.msb) = polynomial c.toNat * X := by
  ext k
  cases k with
  | zero =>
    rw [coeff_add, coeff_mul_X_zero, coeff_word, coeff_monomial]
    simp [coefficient]
  | succ k =>
    rw [coeff_add, coeff_mul_X, coeff_word, coeff_word, coeff_monomial, BitVec.getLsbD_shiftLeft]
    rcases lt_trichotomy k 15 with h | rfl | h
    · have hk : k + 1 < 16 ∧ 16 ≠ k + 1 := by omega
      rw [if_neg hk.2]
      simp [hk.1]
    · simp [coefficient, BitVec.msb_eq_getLsbD_last]
    · have hk : ¬ k + 1 < 16 ∧ 16 ≠ k + 1 := by omega
      rw [if_neg hk.2, BitVec.getLsbD_of_ge c k (by omega)]
      simp [hk.1, coefficient]

theorem polynomial_shiftBit (c : BitVec 16) :
    polynomial (shiftBit c).toNat = polynomial c.toNat * X + C (coefficient c.msb) * divisor := by
  have hshift := polynomial_shifted c
  rw [shiftBit]
  cases hmsb : c.msb with
  | false =>
    rw [hmsb] at hshift
    simpa [coefficient] using hshift
  | true =>
    have hfall : polynomial (c <<< 1).toNat + X ^ 16 = polynomial c.toNat * X := by
      simpa [hmsb, coefficient, monomial_one_right_eq_X_pow] using hshift
    simp only [if_true, BitVec.toNat_xor, polynomial_xor, coefficient, C_1, one_mul]
    rw [← hfall, divisor_eq]
    -- the two powers that fall out cancel
    linear_combination -CharTwo.add_self_eq_zero (X ^ 16 : (ZMod 2)[X])

/-- A word modulo the divisor. -/
noncomputable def residue (c : BitVec 16) : AdjoinRoot divisor :=
  AdjoinRoot.mk divisor (polynomial c.toNat)

theorem residue_injective : Function.Injective residue := by
  intro a b h
  refine BitVec.eq_of_toNat_eq (polynomial_injective (sub_eq_zero.1 ?_))
  by_contra hne
  refine divisor_monic.not_dvd_of_degree_lt hne ?_ (AdjoinRoot.mk_eq_mk.1 h)
  rw [degree_divisor]
  exact (degree_sub_le _ _).trans_lt
    (max_lt (degree_polynomial_lt a.isLt) (degree_polynomial_lt b.isLt))

theorem residue_xor (a b : BitVec 16) : residue (a ^^^ b) = residue a + residue b := by
  rw [residue, BitVec.toNat_xor, polynomial_xor, map_add, residue, residue]

theorem residue_shiftBit (c : BitVec 16) :
    residue (shiftBit c) = residue c * AdjoinRoot.root divisor := by
  rw [residue, polynomial_shiftBit, map_add, map_mul, map_mul, AdjoinRoot.mk_self,
    AdjoinRoot.mk_X, mul_zero, add_zero, residue]

theorem residue_repeat (n : Nat) (c : BitVec 16) :
    residue (Nat.repeat shiftBit n c) = residue c * AdjoinRoot.root divisor ^ n := by
  induction n with
  | zero => simp [Nat.repeat]
  | succ n ih => rw [Nat.repeat, residue_shiftBit, ih, pow_succ, mul_assoc]

theorem residue_enter (c : BitVec 16) (b : UInt8) :
    residue (enter c b) = residue c * AdjoinRoot.root divisor ^ 8 +
      AdjoinRoot.mk divisor (polynomial b.toNat) * AdjoinRoot.root divisor ^ 16 := by
  have hbyte : (b.toBitVec.setWidth 16 <<< 8).toNat = b.toNat <<< 8 := by
    have := b.toNat_lt
    simp
    omega
  have htop : residue (b.toBitVec.setWidth 16 <<< 8) =
      AdjoinRoot.mk divisor (polynomial b.toNat) * AdjoinRoot.root divisor ^ 8 := by
    rw [residue, hbyte, polynomial_shiftLeft, map_mul, map_pow, AdjoinRoot.mk_X]
  rw [enter, shiftByte, residue_repeat, residue_xor, htop]
  ring

theorem length_bits (data : Bytes) : (bits data).length = 8 * data.length := by
  simp [bits, List.length_flatMap, mul_comm]

theorem ofBits_append (a b : List Bool) : ofBits (a ++ b) = ofBits a * X ^ b.length + ofBits b := by
  induction a with
  | nil => simp [ofBits]
  | cons x rest ih =>
    rw [List.cons_append, ofBits, ofBits, ih, List.length_append, add_mul, monomial_mul_X_pow,
      add_assoc]

theorem coeff_ofBits (l : List Bool) (k : Nat) :
    (ofBits l).coeff k = coefficient (l.reverse.getD k false) := by
  induction l with
  | nil => simp [ofBits, coefficient]
  | cons b rest ih =>
    rw [ofBits, coeff_add, coeff_monomial, ih, List.reverse_cons]
    rcases lt_trichotomy k rest.length with h | rfl | h
    · simp [h, h.ne', List.getElem?_append_left]
    · simp [coefficient]
    · have hout : (rest.reverse ++ [b]).length ≤ k := by simpa using h
      rw [if_neg h.ne, List.getD_eq_getElem?_getD, List.getD_eq_getElem?_getD,
        List.getElem?_eq_none hout, List.getElem?_eq_none (by simpa using h.le)]
      simp [coefficient]

theorem ofBits_byte (b : UInt8) :
    ofBits ((List.range 8).map b.toBitVec.getMsbD) = polynomial b.toNat := by
  ext k
  rw [coeff_ofBits, ← UInt8.toNat_toBitVec, coeff_word]
  by_cases h : k < 8
  · have hk : 8 - 1 - k < 8 := by omega
    have hback : 7 - (7 - k) = k := by omega
    simp [List.getD_eq_getElem?_getD, h, hk, BitVec.getMsbD, hback]
  · simp [List.getD_eq_getElem?_getD, h, BitVec.getLsbD_of_ge _ _ (Nat.not_lt.1 h)]

theorem ofBits_bits_cons (b : UInt8) (data : Bytes) :
    ofBits (bits (b :: data)) =
      polynomial b.toNat * X ^ (8 * data.length) + ofBits (bits data) := by
  have hsplit : bits (b :: data) = (List.range 8).map b.toBitVec.getMsbD ++ bits data := rfl
  rw [hsplit, ofBits_append, length_bits, ofBits_byte]

/-- The bytes read follow the start value, and sixteen zeros follow them. -/
theorem residue_fromStart (start : BitVec 16) (data : Bytes) :
    residue (fromStart start data) =
      residue start * AdjoinRoot.root divisor ^ (8 * data.length) +
        AdjoinRoot.mk divisor (ofBits (bits data)) * AdjoinRoot.root divisor ^ 16 := by
  induction data generalizing start with
  | nil => simp [fromStart, bits, ofBits]
  | cons b data ih =>
    have hstep : fromStart start (b :: data) = fromStart (enter start b) data := rfl
    rw [hstep, ih, residue_enter, ofBits_bits_cons, map_add, map_mul, map_pow, AdjoinRoot.mk_X,
      List.length_cons]
    ring

end MoteLink.Frame.Checksum
