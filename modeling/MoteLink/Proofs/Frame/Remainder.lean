import Mathlib.Data.Int.Bitwise
import MoteLink.Proofs.Frame.Division

/-! What the checksum of a byte string is. Main statement: `continued_eq_remainder`, a remainder by
the divisor for every start value that a word holds, and for any other start value the same as for
its low sixteen bits. -/

namespace MoteLink.Frame.Checksum
open Polynomial

/-- A shift in a register of unlimited width, where negative numbers have ones without end to the
left. The bit that falls out is cut off after the generator is added. -/
def shiftWide (c : Int) : Int :=
  Int.land (if c.testBit 15 then Int.xor (2 * c) 0x1021 else 2 * c) 0xFFFF

/-- A byte enters a register of unlimited width, and nothing is cut off before the first shift. -/
def enterWide (c : Int) (b : UInt8) : Int := Nat.repeat shiftWide 8 (Int.xor c (256 * b.toNat))

theorem getLsbD_ofInt {n k : Nat} (c : Int) (h : k < n) :
    (BitVec.ofInt n c).getLsbD k = c.testBit k := by
  cases c with
  | ofNat m =>
    rw [Int.ofNat_eq_natCast, BitVec.ofInt_natCast, BitVec.getLsbD_ofNat, decide_eq_true h]
    rfl
  | negSucc m =>
    rw [BitVec.ofInt_negSucc_eq_not_ofNat, BitVec.getLsbD_not, BitVec.getLsbD_ofNat,
      decide_eq_true h]
    rfl

theorem ofInt_xor (n : Nat) (a b : Int) :
    BitVec.ofInt n (Int.xor a b) = BitVec.ofInt n a ^^^ BitVec.ofInt n b := by
  refine BitVec.eq_of_getLsbD_eq fun k h => ?_
  rw [BitVec.getLsbD_xor, getLsbD_ofInt _ h, getLsbD_ofInt _ h, getLsbD_ofInt _ h,
    Int.testBit_lxor]

theorem ofInt_double (c : Int) : BitVec.ofInt 16 (2 * c) = BitVec.ofInt 16 c <<< 1 := by
  apply BitVec.eq_of_toNat_eq
  simp only [BitVec.toNat_ofInt, BitVec.toNat_shiftLeft, Nat.shiftLeft_eq]
  omega

theorem ofInt_word (w : BitVec 16) : BitVec.ofInt 16 w.toNat = w := by simp

theorem land_mask (c : Int) : Int.land c 0xFFFF = (BitVec.ofInt 16 c).toNat := by
  cases c with
  | ofNat m =>
    rw [Int.ofNat_eq_natCast, BitVec.ofInt_natCast, BitVec.toNat_ofNat,
      ← Nat.and_two_pow_sub_one_eq_mod]
    rfl
  | negSucc m =>
    rw [BitVec.ofInt_negSucc_eq_not_ofNat]
    refine congrArg Int.ofNat (Nat.eq_of_testBit_eq fun k => ?_)
    have hmask : Nat.testBit 0xFFFF k = decide (k < 16) := Nat.testBit_two_pow_sub_one 16 k
    rw [Nat.testBit_ldiff, BitVec.testBit_toNat, BitVec.getLsbD_not, BitVec.getLsbD_ofNat]
    refine (congrArg (· && !m.testBit k) hmask).trans ?_
    cases decide (k < 16) <;> rfl

theorem shiftWide_eq (c : Int) : shiftWide c = (shiftBit (BitVec.ofInt 16 c)).toNat := by
  have hmsb : (BitVec.ofInt 16 c).msb = c.testBit 15 := by
    rw [BitVec.msb_eq_getLsbD_last, getLsbD_ofInt c (by decide)]
  rw [shiftWide, land_mask, shiftBit, hmsb]
  cases c.testBit 15 with
  | false => simp [ofInt_double]
  | true => simp [ofInt_double, ofInt_xor, generator]

theorem repeat_shiftWide (n : Nat) (c : Int) :
    Nat.repeat shiftWide (n + 1) c =
      (Nat.repeat shiftBit (n + 1) (BitVec.ofInt 16 c)).toNat := by
  induction n with
  | zero => exact shiftWide_eq c
  | succ n ih =>
    rw [Nat.repeat, ih, shiftWide_eq, ofInt_word]
    rfl

theorem enterWide_eq (c : Int) (b : UInt8) :
    enterWide c b = (enter (BitVec.ofInt 16 c) b).toNat := by
  have hbyte : BitVec.ofInt 16 (256 * b.toNat) = b.toBitVec.setWidth 16 <<< 8 := by
    apply BitVec.eq_of_toNat_eq
    simp only [BitVec.toNat_ofInt, BitVec.toNat_shiftLeft, Nat.shiftLeft_eq, BitVec.toNat_setWidth,
      UInt8.toNat_toBitVec]
    omega
  rw [enterWide, repeat_shiftWide, ofInt_xor, hbyte, enter, shiftByte]

theorem continued_word (w : BitVec 16) (data : Bytes) :
    continued w.toNat data = (fromStart w data).toNat := by
  cases data with
  | nil => rfl
  | cons b data => simp [continued]

theorem foldl_enterWide (start : Int) (data : Bytes) :
    data.foldl enterWide start = continued start data := by
  cases data with
  | nil => rfl
  | cons b data =>
    have hlater : ∀ w : BitVec 16, data.foldl enterWide w.toNat = (fromStart w data).toNat := by
      induction data with
      | nil => intro w; rfl
      | cons x data ih =>
        intro w
        rw [List.foldl_cons, enterWide_eq, ofInt_word, ih]
        rfl
    rw [List.foldl_cons, enterWide_eq, hlater]
    rfl

theorem polynomial_fromStart (start : BitVec 16) (data : Bytes) :
    polynomial (fromStart start data).toNat =
      (polynomial start.toNat * X ^ (8 * data.length) + ofBits (bits data) * X ^ 16) %ₘ
        divisor := by
  have hdegree : (polynomial (fromStart start data).toNat).degree < divisor.degree := by
    rw [degree_divisor]
    exact degree_polynomial_lt (fromStart start data).isLt
  rw [← (modByMonic_eq_self_iff divisor_monic).2 hdegree]
  refine modByMonic_eq_of_dvd_sub divisor_monic (AdjoinRoot.mk_eq_mk.1 ?_)
  have hresidue := residue_fromStart start data
  rw [residue, residue] at hresidue
  rw [hresidue, map_add, map_mul, map_mul, map_pow, map_pow, AdjoinRoot.mk_X]

/-- The checksum is what a register of unlimited width holds in the end. -/
theorem continued_eq_remainder (data : Bytes) :
    (∀ start : Int, continued start data = data.foldl enterWide start) ∧
      (∀ start : Nat, start < 65536 → ∃ rest : Nat, rest < 65536 ∧ continued start data = rest ∧
        polynomial rest =
          (polynomial start * X ^ (8 * data.length) + ofBits (bits data) * X ^ 16) %ₘ divisor) ∧
      (data ≠ [] → ∀ start : Int, continued start data = continued (start % 65536) data) := by
  refine ⟨fun start => (foldl_enterWide start data).symm, fun start h => ?_, fun hne start => ?_⟩
  · have hstart : (BitVec.ofNat 16 start).toNat = start := by
      rw [BitVec.toNat_ofNat, Nat.mod_eq_of_lt h]
    refine ⟨(fromStart (BitVec.ofNat 16 start) data).toNat, BitVec.isLt _, ?_, ?_⟩
    · rw [← continued_word, hstart]
    · rw [polynomial_fromStart, hstart]
  · obtain ⟨b, rest, rfl⟩ := List.exists_cons_of_ne_nil hne
    have hlow : BitVec.ofInt 16 (start % 65536) = BitVec.ofInt 16 start := by
      apply BitVec.eq_of_toNat_eq
      simp
    rw [continued, continued, hlow]
    rfl

theorem continued_eq_remainder_digits :
    let digits : Bytes := [0x31, 0x32, 0x33, 0x34, 0x35, 0x36, 0x37, 0x38, 0x39]
    0xFFFF < 65536 ∧ digits ≠ [] ∧ continued 0xFFFF digits = 0x29B1 ∧
      polynomial 0x29B1 =
        (polynomial 0xFFFF * X ^ 72 + ofBits (bits digits) * X ^ 16) %ₘ divisor ∧
      continued (-1) digits = 0x29B1 := by
  intro digits
  have hsum : continued 0xFFFF digits = 0x29B1 := by decide +kernel
  obtain ⟨-, hremainder, hlow⟩ := continued_eq_remainder digits
  obtain ⟨rest, -, hrest, hpolynomial⟩ := hremainder 0xFFFF (by decide)
  obtain rfl : rest = 0x29B1 := Int.ofNat.inj (hrest.symm.trans hsum)
  have hne : digits ≠ [] := List.cons_ne_nil _ _
  exact ⟨by decide, hne, hsum, hpolynomial, (hlow hne (-1)).trans hsum⟩

end MoteLink.Frame.Checksum
