import Mathlib.Algebra.CharP.Two
import Mathlib.Tactic.Ring
import MoteLink.Proofs.Frame.Division

/-! Multiples of the divisor. None but zero has its terms within sixteen powers, none has an odd
number of terms, and none within the bits of a frame has two. Main statements:
`not_divisor_dvd_of_near`, `even_of_divisor_dvd` and `not_divisor_dvd_of_two`. -/

namespace MoteLink.Frame.Checksum
open Polynomial

theorem divisor_coprime (k : Nat) : IsCoprime divisor (X ^ k) := by
  refine IsCoprime.pow_right ⟨1, -(X ^ 15 + X ^ 11 + X ^ 4), ?_⟩
  rw [divisor]
  ring

/-- The divisor has a constant term and degree 16, so a multiple spreads over 17 powers at least. -/
theorem not_divisor_dvd_of_near {p : (ZMod 2)[X]} (hne : p ≠ 0) {k : Nat}
    (near : ∀ i, p.coeff i ≠ 0 → k ≤ i ∧ i < k + 16) : ¬ divisor ∣ p := by
  have hlow : X ^ k ∣ p := by
    refine X_pow_dvd_iff.2 fun i hi => ?_
    by_contra hcoeff
    have := (near i hcoeff).1
    omega
  obtain ⟨q, rfl⟩ := hlow
  have hq : q ≠ 0 := right_ne_zero_of_mul hne
  have hdegree : q.degree < divisor.degree := by
    rw [degree_divisor, degree_lt_iff_coeff_zero]
    intro i hi
    by_contra hcoeff
    have := (near (i + k) (by rwa [coeff_X_pow_mul])).2
    omega
  exact fun hdvd =>
    divisor_monic.not_dvd_of_degree_lt hq hdegree ((divisor_coprime k).dvd_of_dvd_mul_left hdvd)

theorem eval_ofBits (l : List Bool) : (ofBits l).eval 1 = (l.count true : ZMod 2) := by
  induction l with
  | nil => simp [ofBits]
  | cons b rest ih => cases b <;> simp [ofBits, ih, coefficient, add_comm]

/-- The divisor has four terms, so one is a root of it and of its multiples. -/
theorem even_of_divisor_dvd {l : List Bool} (h : divisor ∣ ofBits l) : Even (l.count true) := by
  have hroot : divisor.eval 1 = 0 := by
    simp only [divisor, eval_add, eval_pow, eval_X, eval_one, one_pow]
    decide
  have hzero := eval_dvd (x := 1) h
  rw [hroot, zero_dvd_iff, eval_ofBits] at hzero
  exact (ZMod.natCast_eq_zero_iff_even).1 hzero

/-- A shift of the register as a number. -/
def shiftNumber (c : Nat) : Nat := 2 * c % 65536 ^^^ c / 32768 * 0x1021

/-- None of `n` numbers is one, where each is the shift of the one before. -/
def staysAway : Nat → Nat → Bool
  | 0, _ => true
  | n + 1, c => c != 1 && staysAway n (shiftNumber c)

theorem toNat_shiftBit (c : BitVec 16) : (shiftBit c).toNat = shiftNumber c.toNat := by
  have hlt := c.isLt
  have hshift : (c <<< 1).toNat = 2 * c.toNat % 65536 := by
    rw [BitVec.toNat_shiftLeft, Nat.shiftLeft_eq, pow_one, mul_comm]
  rw [shiftBit, BitVec.msb_eq_decide, shiftNumber]
  by_cases h : 2 ^ (16 - 1) ≤ c.toNat
  · have hfall : c.toNat / 32768 = 1 := by omega
    rw [decide_eq_true h, if_pos rfl, BitVec.toNat_xor, hshift, hfall]
    rfl
  · have hfall : c.toNat / 32768 = 0 := by omega
    rw [decide_eq_false h, if_neg Bool.false_ne_true, hshift, hfall, zero_mul, Nat.xor_zero]

theorem toNat_repeat_shiftBit (n : Nat) (c : BitVec 16) :
    (Nat.repeat shiftBit n c).toNat = shiftNumber^[n] c.toNat := by
  induction n with
  | zero => rfl
  | succ n ih => rw [Nat.repeat, toNat_shiftBit, ih, Function.iterate_succ_apply']

theorem iterate_ne_one {n c : Nat} (h : staysAway n c = true) {d : Nat} (hd : d < n) :
    shiftNumber^[d] c ≠ 1 := by
  induction n generalizing c d with
  | zero => exact absurd hd (Nat.not_lt_zero d)
  | succ n ih =>
    simp only [staysAway, Bool.and_eq_true, bne_iff_ne] at h
    cases d with
    | zero => exact h.1
    | succ d =>
      rw [Function.iterate_succ_apply]
      exact ih h.2 (Nat.lt_of_succ_lt_succ hd)

/-- The variable does not come round to one within the bits of a frame. -/
theorem root_pow_ne_one {d : Nat} (hpos : 0 < d) (hd : d < 2112) :
    AdjoinRoot.root divisor ^ d ≠ 1 := by
  intro hone
  have haway : staysAway 2111 2 = true := by decide +kernel
  obtain ⟨m, rfl⟩ := Nat.exists_eq_succ_of_ne_zero hpos.ne'
  have hround : Nat.repeat shiftBit (m + 1) 1 = 1 := by
    apply residue_injective
    rw [residue_repeat, hone, mul_one]
  have hnumber := toNat_repeat_shiftBit (m + 1) 1
  rw [hround, Function.iterate_succ_apply] at hnumber
  exact iterate_ne_one haway (show m < 2111 by omega) hnumber.symm

theorem ofBits_of_count_zero {l : List Bool} (h : l.count true = 0) : ofBits l = 0 := by
  induction l with
  | nil => rfl
  | cons b rest ih =>
    cases b with
    | true => simp at h
    | false => simp [ofBits, coefficient, ih (by simpa using h)]

theorem ofBits_of_count_one {l : List Bool} (h : l.count true = 1) :
    ∃ i < l.length, ofBits l = X ^ i := by
  induction l with
  | nil => simp at h
  | cons b rest ih =>
    cases b with
    | true =>
      refine ⟨rest.length, by simp, ?_⟩
      have hrest : rest.count true = 0 := by simpa using h
      simp [ofBits, ofBits_of_count_zero hrest, coefficient, monomial_one_right_eq_X_pow]
    | false =>
      obtain ⟨i, hi, hp⟩ := ih (by simpa using h)
      refine ⟨i, hi.trans (by simp), ?_⟩
      simp [ofBits, hp, coefficient]

theorem ofBits_of_count_two {l : List Bool} (h : l.count true = 2) :
    ∃ i d, 0 < d ∧ i + d < l.length ∧ ofBits l = X ^ i * (X ^ d - 1) := by
  induction l with
  | nil => simp at h
  | cons b rest ih =>
    cases b with
    | true =>
      obtain ⟨i, hi, hp⟩ := ofBits_of_count_one (l := rest) (by simpa using h)
      refine ⟨i, rest.length - i, by omega, by simp; omega, ?_⟩
      have hsum : i + (rest.length - i) = rest.length := by omega
      rw [ofBits, hp, CharTwo.sub_eq_add, mul_add, ← pow_add, hsum, mul_one]
      simp [coefficient, monomial_one_right_eq_X_pow]
    | false =>
      obtain ⟨i, d, hpos, hlt, hp⟩ := ih (by simpa using h)
      refine ⟨i, d, hpos, hlt.trans (by simp), ?_⟩
      simp [ofBits, hp, coefficient]

theorem not_divisor_dvd_of_two {l : List Bool} (hlen : l.length ≤ 2112) (h : l.count true = 2) :
    ¬ divisor ∣ ofBits l := by
  obtain ⟨i, d, hpos, hlt, hp⟩ := ofBits_of_count_two h
  rw [hp]
  intro hdvd
  have hround := AdjoinRoot.mk_eq_mk.2 ((divisor_coprime i).dvd_of_dvd_mul_left hdvd)
  rw [map_pow, AdjoinRoot.mk_X, map_one] at hround
  exact root_pow_ne_one hpos (by omega) hround

end MoteLink.Frame.Checksum
