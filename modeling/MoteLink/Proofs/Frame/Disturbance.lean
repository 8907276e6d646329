import MoteLink.Proofs.Frame.Multiples
import MoteLink.Proofs.Frame.RoundTrip

/-! Frames whose bits are flipped on the way. The checksum misses a pattern of flips only if the
divisor divides its polynomial, in which the two bytes of the checksum change places, since they are
sent the low one first. Main statement: `finish_disturbed`. -/

namespace MoteLink.Frame
open Polynomial Checksum

/-- The bytes with their bits flipped where the pattern has ones. -/
def disturb (data pattern : Bytes) : Bytes := List.zipWith (· ^^^ ·) data pattern

/-- The bit at the position is flipped, counted from the first bit of the first byte. -/
def Flips (pattern : Bytes) (k : Nat) : Prop := (bits pattern)[k]? = some true

def flips (pattern : Bytes) : Nat := (bits pattern).count true

/-- Patterns for a frame with `n` bytes of body: two flips, an odd number of them, flips of the body
within sixteen positions, or flips of the checksum alone. -/
inductive Slight (n : Nat) (pattern : Bytes) : Prop where
  | two (h : flips pattern = 2)
  | odd (h : Odd (flips pattern))
  | burst (start : Nat) (h : ∀ k, Flips pattern k → k < 8 * n ∧ start ≤ k ∧ k < start + 16)
  | checksum (h : ∀ k, Flips pattern k → 8 * n ≤ k)

theorem bits_append (a b : Bytes) : bits (a ++ b) = bits a ++ bits b := List.flatMap_append

theorem ofBits_disturb {data pattern : Bytes} (h : data.length = pattern.length) :
    ofBits (bits (disturb data pattern)) = ofBits (bits data) + ofBits (bits pattern) := by
  induction data generalizing pattern with
  | nil => simp [disturb, List.length_eq_zero_iff.1 h.symm, bits, ofBits]
  | cons b data ih =>
    cases pattern with
    | nil => simp at h
    | cons x pattern =>
      have hlen : data.length = pattern.length := by simpa using h
      have hcount : (disturb data pattern).length = pattern.length := by simp [disturb, hlen]
      have hcons : disturb (b :: data) (x :: pattern) = (b ^^^ x) :: disturb data pattern := rfl
      rw [hcons, ofBits_bits_cons, ofBits_bits_cons, ofBits_bits_cons, ih hlen, hcount, hlen,
        UInt8.toNat_xor, polynomial_xor]
      ring

theorem polynomial_word (low high : UInt8) :
    polynomial (Bytes.word low high).toNat = ofBits (bits [high, low]) := by
  have hlow := low.toNat_lt
  have hword : (Bytes.word low high).toNat = 2 ^ 8 * high.toNat + low.toNat := by
    have hhigh := high.toNat_lt
    rw [Bytes.word, BitVec.toNat_ofNat]
    omega
  rw [ofBits_bits_cons, ofBits_bits_cons, hword, polynomial_concat hlow]
  simp [bits, ofBits]

theorem residue_of (data : Bytes) :
    residue (of data) = AdjoinRoot.mk divisor (ofBits (bits data) * X ^ 16) := by
  have hzero : residue 0 = 0 := by
    simp [residue, polynomial]
  rw [of, residue_fromStart, hzero, zero_mul, zero_add, map_mul, map_pow, AdjoinRoot.mk_X]

/-- A disturbed frame passes the check only if the divisor divides the pattern's polynomial. -/
theorem divisor_dvd_of_passes {body pattern : Bytes} {lo hi low high : UInt8}
    (hlen : body.length = pattern.length) (hsum : of body = Bytes.word lo hi)
    (h : of (disturb body pattern) = Bytes.word (lo ^^^ low) (hi ^^^ high)) :
    divisor ∣ ofBits (bits (pattern ++ [high, low])) := by
  have hsent := residue_of body
  rw [hsum, residue, polynomial_word] at hsent
  have hpass := residue_of (disturb body pattern)
  have hword : ofBits (bits [hi ^^^ high, lo ^^^ low]) =
      ofBits (bits [hi, lo]) + ofBits (bits [high, low]) :=
    @ofBits_disturb [hi, lo] [high, low] rfl
  rw [h, residue, polynomial_word, hword, ofBits_disturb hlen, map_add, hsent, add_mul, map_add,
    add_right_inj] at hpass
  have hsplit : ofBits (bits (pattern ++ [high, low])) =
      ofBits (bits pattern) * X ^ 16 - ofBits (bits [high, low]) := by
    rw [CharTwo.sub_eq_add, bits_append, ofBits_append]
    rfl
  rw [hsplit]
  exact AdjoinRoot.mk_eq_mk.1 hpass.symm

theorem judge_disturbed {body pattern : Bytes} {low high : UInt8} (hbody : body ≠ [])
    (hlen : body.length = pattern.length)
    (h : ¬ divisor ∣ ofBits (bits (pattern ++ [high, low]))) :
    ∃ computed received,
      judge (disturb (summed body) (pattern ++ [low, high])) =
        .error (.badChecksum computed received
          (disturb (summed body) (pattern ++ [low, high]))) := by
  obtain ⟨lo, hi, hof, hsum⟩ : ∃ lo hi, Bytes.ofWord (of body) = [lo, hi] ∧
      of body = Bytes.word lo hi := ⟨_, _, rfl, (Bytes.word_ofWord _).symm⟩
  have hframe : disturb (summed body) (pattern ++ [low, high]) =
      disturb body pattern ++ [lo ^^^ low, hi ^^^ high] := by
    rw [summed, hof, disturb, List.zipWith_append hlen]
    rfl
  have hcount : 3 ≤ (disturb body pattern ++ [lo ^^^ low, hi ^^^ high]).length := by
    have := List.length_pos_iff.2 hbody
    simp [disturb, ← hlen]
    omega
  rw [hframe, judge_eq hcount, bodyOf_append, received_append, if_pos]
  · exact ⟨_, _, rfl⟩
  · rw [ne_eq, ← word_eq_iff]
    exact fun hpass => h (divisor_dvd_of_passes hlen hsum hpass)

theorem exists_flip_of_coeff {l : List Bool} {i : Nat} (h : (ofBits l).coeff i ≠ 0) :
    ∃ k, k + i + 1 = l.length ∧ l[k]? = some true := by
  rw [coeff_ofBits, List.getD_eq_getElem?_getD] at h
  by_cases hi : i < l.length
  · refine ⟨l.length - 1 - i, by omega, ?_⟩
    rw [List.getElem?_reverse hi] at h
    have hk : l.length - 1 - i < l.length := by omega
    rw [List.getElem?_eq_getElem hk] at h ⊢
    cases hbit : l[l.length - 1 - i] with
    | true => rfl
    | false => simp [hbit, coefficient] at h
  · rw [List.getElem?_eq_none (by simpa using hi)] at h
    exact absurd rfl h

theorem ofBits_ne_zero {l : List Bool} (h : true ∈ l) : ofBits l ≠ 0 := by
  obtain ⟨k, hk, hbit⟩ := List.getElem_of_mem h
  intro hzero
  have hcoeff := coeff_ofBits l (l.length - 1 - k)
  have hback : l.length - 1 - (l.length - 1 - k) = k := by omega
  have hlt : l.length - 1 - k < l.length := by omega
  rw [hzero, List.getD_eq_getElem?_getD, List.getElem?_reverse hlt, hback,
    List.getElem?_eq_getElem hk, hbit] at hcoeff
  simp [coefficient] at hcoeff

/-- Each term of the polynomial is a flipped bit, of the body or of the checksum. -/
theorem flips_of_coeff {pattern : Bytes} {low high : UInt8} {i : Nat}
    (h : (ofBits (bits (pattern ++ [high, low]))).coeff i ≠ 0) :
    (∃ k, k + i + 1 = 8 * pattern.length + 16 ∧ k < 8 * pattern.length ∧
        Flips (pattern ++ [low, high]) k) ∨
      i < 16 ∧ ∃ k, 8 * pattern.length ≤ k ∧ Flips (pattern ++ [low, high]) k := by
  obtain ⟨k, hsum, hbit⟩ := exists_flip_of_coeff h
  rw [bits_append] at hsum hbit
  simp only [List.length_append, length_bits, List.length_cons, List.length_nil] at hsum
  by_cases hk : k < 8 * pattern.length
  · have hfront : k < (bits pattern).length := by rwa [length_bits]
    refine .inl ⟨k, hsum, hk, ?_⟩
    rw [List.getElem?_append_left hfront] at hbit
    rw [Flips, bits_append, List.getElem?_append_left hfront, hbit]
  · refine .inr ⟨by omega, ?_⟩
    have hmem : true ∈ bits [low, high] := by
      rw [List.getElem?_append_right (by rw [length_bits]; omega)] at hbit
      have := List.mem_of_getElem? hbit
      simpa [bits, or_comm] using this
    obtain ⟨j, hj⟩ := List.mem_iff_getElem?.1 hmem
    refine ⟨8 * pattern.length + j, by omega, ?_⟩
    rw [Flips, bits_append, List.getElem?_append_right (by rw [length_bits]; omega), length_bits,
      Nat.add_sub_cancel_left, hj]

theorem not_divisor_dvd_of_slight {pattern : Bytes} {low high : UInt8}
    (hlen : pattern.length ≤ 262) (hne : true ∈ bits (pattern ++ [low, high]))
    (h : Slight pattern.length (pattern ++ [low, high])) :
    ¬ divisor ∣ ofBits (bits (pattern ++ [high, low])) := by
  have hperm : (bits (pattern ++ [high, low])).Perm (bits (pattern ++ [low, high])) := by
    rw [bits_append, bits_append]
    exact (List.Perm.flatMap_right _ (List.Perm.swap low high [])).append_left _
  have hcount : (bits (pattern ++ [high, low])).count true = flips (pattern ++ [low, high]) :=
    hperm.count_eq true
  have hzero := ofBits_ne_zero (hperm.mem_iff.2 hne)
  cases h with
  | two h =>
    refine not_divisor_dvd_of_two ?_ (hcount.trans h)
    rw [length_bits, List.length_append]
    simp
    omega
  | odd h =>
    intro hdvd
    rw [← hcount, ← Nat.not_even_iff_odd] at h
    exact h (even_of_divisor_dvd hdvd)
  | burst start h =>
    refine not_divisor_dvd_of_near (k := 8 * pattern.length - start) hzero fun i hi => ?_
    rcases flips_of_coeff hi with ⟨k, hsum, _, hflip⟩ | ⟨_, k, hk, hflip⟩
    · have := h k hflip
      omega
    · have := h k hflip
      omega
  | checksum h =>
    refine not_divisor_dvd_of_near (k := 0) hzero fun i hi => ?_
    rcases flips_of_coeff hi with ⟨k, _, hk, hflip⟩ | ⟨hi, _⟩
    · have := h k hflip
      omega
    · exact ⟨Nat.zero_le i, by omega⟩

theorem eq_zero_of_not_mem_bits {data : Bytes} (h : true ∉ bits data) :
    data = List.replicate data.length 0 := by
  refine List.eq_replicate_iff.2 ⟨rfl, fun b hb => ?_⟩
  simp only [bits, List.mem_flatMap, not_exists, not_and] at h
  have hbyte := h b hb
  refine UInt8.eq_of_toBitVec_eq (BitVec.eq_of_getMsbD_eq fun k hk => ?_)
  simp only [List.mem_map, List.mem_range, not_exists, not_and, Bool.not_eq_true] at hbyte
  simpa using hbyte k hk

theorem disturb_zero (data : Bytes) : disturb data (List.replicate data.length 0) = data := by
  induction data with
  | nil => rfl
  | cons b data ih =>
    rw [List.length_cons, List.replicate_succ]
    exact congrArg₂ List.cons UInt8.xor_zero ih

/-- A pattern that flips nothing leaves the body as it was, and every slight pattern is noticed. -/
theorem finish_disturbed (r : Receiver) {body pattern : Bytes} (fits : Fits body)
    (hlen : pattern.length = body.length + 2) :
    (pattern = List.replicate pattern.length 0 →
        ({ r with content := disturb (summed body) pattern } : Receiver).finish =
          ({ r with content := [] }, .body body)) ∧
      (pattern ≠ List.replicate pattern.length 0 → Slight body.length pattern →
        ∃ computed received,
          ({ r with content := disturb (summed body) pattern } : Receiver).finish =
            ({ r with content := [] },
              .dropped (.badChecksum computed received (disturb (summed body) pattern)))) := by
  have hbody : body ≠ [] := List.length_pos_iff.1 fits.1
  refine ⟨fun hzero => ?_, fun hne hslight => ?_⟩
  · have hsame : disturb (summed body) pattern = summed body := by
      rw [hzero, hlen, ← length_summed, disturb_zero]
    simp [Receiver.finish, hsame, judge_summed hbody]
  · obtain ⟨front, low, high, rfl⟩ := exists_last_two (show 2 ≤ pattern.length by omega)
    have hfront : body.length = front.length := by simpa using hlen.symm
    have hmem : true ∈ bits (front ++ [low, high]) := by
      by_contra hno
      exact hne (eq_zero_of_not_mem_bits hno)
    rw [hfront] at hslight
    obtain ⟨computed, received, hjudge⟩ := judge_disturbed hbody hfront
      (not_divisor_dvd_of_slight (by have := fits.2; omega) hmem hslight)
    exact ⟨computed, received, by simp [Receiver.finish, hjudge]⟩

theorem finish_disturbed_first_and_last :
    let body : Bytes := [0x45, 0x7E, 0x00]
    let pattern : Bytes := [0x80, 0x00, 0x00, 0x00, 0x01]
    Fits body ∧ pattern.length = body.length + 2 ∧
      pattern ≠ List.replicate pattern.length 0 ∧ Slight body.length pattern ∧
      (∃ computed received,
        ({ content := disturb (summed body) pattern } : Receiver).finish =
          ({}, .dropped (.badChecksum computed received (disturb (summed body) pattern)))) ∧
      ({ content := disturb (summed body) [0, 0, 0, 0, 0] } : Receiver).finish =
        ({}, .body body) := by
  intro body pattern
  have hfits : Fits body := by decide
  have hne : pattern ≠ List.replicate pattern.length 0 := by decide
  have hslight : Slight body.length pattern := .two (by decide)
  exact ⟨hfits, rfl, hne, hslight, (finish_disturbed {} hfits rfl).2 hne hslight,
    (finish_disturbed {} hfits rfl).1 rfl⟩

end MoteLink.Frame
