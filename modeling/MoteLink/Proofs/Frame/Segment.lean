import Mathlib.Data.List.Basic
import Mathlib.Data.List.Induction
import MoteLink.Proofs.Frame.Run
import MoteLink.Proofs.Frame.Unstuffing

/-! What a receiver makes of the bytes between two delimiters. Its state is computed from those
bytes alone, and so is the one signal that they bring about. Main statements: `run_segment` and
`run_closed_segment`. -/

namespace MoteLink.Frame

/-- The checksum that stands behind a body, as a number: the low byte first. -/
def received (u : Bytes) : Nat :=
  (u.getD (u.length - 2) 0).toNat + 256 * (u.getD (u.length - 1) 0).toNat

def bodyOf (u : Bytes) : Bytes := u.take (u.length - 2)

/-- A segment beyond the capacity is dropped before its end is seen. -/
def overflow (g : Bytes) : Option Signal :=
  if capacity < (unstuff g).length then some (.dropped (.tooLong (capacity + 1))) else none

/-- What the delimiter behind a segment brings about if the segment was not dropped before. -/
def closing (g : Bytes) : Signal :=
  if dangling g then .dropped .brokenEscape
  else if (unstuff g).length < 3 then .dropped (.short (unstuff g))
  else if received (unstuff g) ≠ (Checksum.of (bodyOf (unstuff g))).toNat then
    .dropped (.badChecksum (Checksum.of (bodyOf (unstuff g)))
      (BitVec.ofNat 16 (received (unstuff g))) (unstuff g))
  else .body (bodyOf (unstuff g))

/-- What becomes of a segment between two delimiters. -/
def verdict (g : Bytes) : Option Signal :=
  if g = [] then none else (overflow g).or (some (closing g))

theorem bodyOf_append (body : Bytes) (low high : UInt8) : bodyOf (body ++ [low, high]) = body := by
  simp [bodyOf]

theorem received_append (body : Bytes) (low high : UInt8) :
    received (body ++ [low, high]) = low.toNat + 256 * high.toNat := by
  simp [received]

theorem exists_last_two {u : Bytes} (h : 2 ≤ u.length) :
    ∃ body low high, u = body ++ [low, high] := by
  have hlen : (u.drop (u.length - 2)).length = 2 := by
    rw [List.length_drop]
    omega
  obtain ⟨low, high, hlast⟩ := List.length_eq_two.1 hlen
  refine ⟨u.take (u.length - 2), low, high, ?_⟩
  rw [← hlast, List.take_append_drop]

theorem word_eq_iff (w : BitVec 16) (low high : UInt8) :
    w = Bytes.word low high ↔ low.toNat + 256 * high.toNat = w.toNat := by
  have hlow := low.toNat_lt
  have hhigh := high.toNat_lt
  rw [← BitVec.toNat_inj, Bytes.word, BitVec.toNat_ofNat, Nat.mod_eq_of_lt (by omega), eq_comm]

theorem judge_eq {u : Bytes} (h : 3 ≤ u.length) :
    judge u =
      if received u ≠ (Checksum.of (bodyOf u)).toNat then
        .error (.badChecksum (Checksum.of (bodyOf u)) (BitVec.ofNat 16 (received u)) u)
      else .ok (bodyOf u) := by
  obtain ⟨body, low, high, rfl⟩ := exists_last_two (show 2 ≤ u.length by omega)
  have hword : BitVec.ofNat 16 (low.toNat + 256 * high.toNat) = Bytes.word low high := rfl
  rw [bodyOf_append, received_append, hword, judge, if_neg (by omega)]
  by_cases hr : low.toNat + 256 * high.toNat = (Checksum.of body).toNat
  · simp [hr, (word_eq_iff _ low high).2 hr]
  · have hw : Checksum.of body ≠ Bytes.word low high := fun e => hr ((word_eq_iff _ _ _).1 e)
    simp [hr, hw]

theorem judge_summed {body : Bytes} (h : body ≠ []) : judge (summed body) = .ok body := by
  have hlen : 3 ≤ (summed body).length := by
    have := List.length_pos_iff.2 h
    simp [summed, Bytes.ofWord]
    omega
  rw [judge_eq hlen, summed, Bytes.ofWord, bodyOf_append, received_append, if_neg]
  rw [ne_eq, not_not, ← word_eq_iff, Bytes.word_ofWord]

end MoteLink.Frame

namespace MoteLink.Receiver
open MoteLink.Frame Signal

/-- Between delimiters, with nothing collected yet. -/
def ready : Receiver := { phase := .inside }

/-- The receiver behind a delimiter and the bytes `g`, none of which is a delimiter. -/
def holding (g : Bytes) : Receiver :=
  if capacity < (unstuff g).length then {}
  else { phase := if dangling g then .escaped else .inside, content := unstuff g }

theorem length_unstuff_le (g : Bytes) (b : UInt8) :
    (unstuff g).length ≤ (unstuff (g ++ [b])).length := by
  rw [unstuff_concat]
  split
  · simp
  · split <;> simp

theorem holding_of_lt {g : Bytes} (h : capacity < (unstuff g).length) : holding g = {} := if_pos h

theorem holding_of_le {g : Bytes} (h : (unstuff g).length ≤ capacity) :
    holding g = { phase := if dangling g then .escaped else .inside, content := unstuff g } :=
  if_neg (Nat.not_lt.2 h)

/-- Collecting the last byte of `g`, which unstuffs to `b`, behind the content `c`. -/
theorem collect_eq {r : Receiver} {g : Bytes} {b : UInt8} (hlen : r.content.length ≤ capacity)
    (hg : unstuff g = r.content ++ [b]) (hd : dangling g = false) :
    r.collect b = (holding g, (overflow g).getD .quiet) := by
  have hcount : (unstuff g).length = r.content.length + 1 := by simp [hg]
  by_cases hlong : capacity < (unstuff g).length
  · have hsize : r.content.length = capacity := by omega
    simp [collect, overflow, holding, hlong, hsize]
  · have hshort : ¬ capacity < r.content.length + 1 := by omega
    simp [collect, overflow, holding, hshort, hg, hd]

theorem step_holding (g : Bytes) {b : UInt8} (hb : b ≠ delimiter) :
    (holding g).step b =
      (holding (g ++ [b]),
        if capacity < (unstuff g).length then .quiet else (overflow (g ++ [b])).getD .quiet) := by
  by_cases hlong : capacity < (unstuff g).length
  -- dropped before, and hunting since
  · have hmore := Nat.lt_of_lt_of_le hlong (length_unstuff_le g b)
    rw [holding_of_lt hlong, holding_of_lt hmore, if_pos hlong]
    simp [step, hb]
  · have hle : (unstuff g).length ≤ capacity := Nat.not_lt.1 hlong
    rw [holding_of_le hle, if_neg hlong]
    cases hd : dangling g with
    | true =>
      simp only [step, if_true, hb, if_false]
      exact collect_eq hle (by simp [unstuff_concat, hd]) (by simp [dangling_concat, hd])
    | false =>
      by_cases hm : b = escapeMark
      · subst hm
        have hsame : unstuff (g ++ [escapeMark]) = unstuff g := by simp [unstuff_concat, hd]
        have hdang : dangling (g ++ [escapeMark]) = true := by simp [dangling_concat, hd]
        simp [step, hb, holding, overflow, hsame, hdang, hlong]
      · simp only [step, Bool.false_eq_true, if_false, hb, hm]
        exact collect_eq hle (by simp [unstuff_concat, hd, hm]) (by simp [dangling_concat, hd, hm])

theorem run_hunting {noise : Bytes} (h : delimiter ∉ noise) :
    (({} : Receiver).run noise).1 = {} ∧ loud (({} : Receiver).run noise).2 = [] := by
  induction noise with
  | nil => exact ⟨rfl, rfl⟩
  | cons b rest ih =>
    simp only [List.mem_cons, not_or] at h
    have hstep : ({} : Receiver).step b = ({}, .quiet) := by simp [step, Ne.symm h.1]
    simpa [run, hstep, loud] using ih h.2

/-- The bytes of a segment are heard at most once, and then because they are too many. -/
theorem run_segment {g : Bytes} (hg : delimiter ∉ g) :
    (ready.run g).1 = holding g ∧ loud (ready.run g).2 = (overflow g).toList := by
  -- a receiver meets the last byte last, so the induction adds bytes at the end
  induction g using List.reverseRecOn with
  | nil => exact ⟨rfl, rfl⟩
  | append_singleton g b ih =>
    simp only [List.mem_append, List.mem_singleton, not_or] at hg
    obtain ⟨hstate, hloud⟩ := ih hg.1
    have hstep := step_holding g (Ne.symm hg.2)
    rw [run_append, hstate]
    simp only [run, hstep, loud_append, hloud, true_and]
    by_cases hlong : capacity < (unstuff g).length
    · have hmore := Nat.lt_of_lt_of_le hlong (length_unstuff_le g b)
      simp [loud, overflow, hlong, hmore]
    · by_cases hmore : capacity < (unstuff (g ++ [b])).length <;>
        simp [loud, overflow, hlong, hmore]

theorem finish_holding {g : Bytes} (hd : dangling g = false) :
    finish { phase := .inside, content := unstuff g } = (ready, closing g) := by
  simp only [finish, closing, hd, Bool.false_eq_true, if_false, ready, Prod.mk.injEq, true_and]
  by_cases hshort : (unstuff g).length < 3
  · simp [judge, hshort]
  · rw [judge_eq (Nat.not_lt.1 hshort), if_neg hshort]
    by_cases hsum : received (unstuff g) = (Checksum.of (bodyOf (unstuff g))).toNat <;>
      simp [hsum]

theorem closing_ne_quiet (g : Bytes) : closing g ≠ .quiet := by
  unfold closing
  split_ifs <;> simp

theorem step_delimiter_state (r : Receiver) : (r.step delimiter).1 = ready := by
  obtain ⟨phase, content⟩ := r
  cases phase with
  | hunting => rfl
  | inside => cases content <;> rfl
  | escaped => rfl

theorem step_holding_delimiter (g : Bytes) :
    ((holding g).step delimiter).2 =
      if g = [] ∨ (overflow g).isSome then .quiet else closing g := by
  by_cases hlong : capacity < (unstuff g).length
  · simp [holding, overflow, hlong, step]
  · rw [holding_of_le (Nat.not_lt.1 hlong)]
    cases hd : dangling g with
    | true =>
      have hne : g ≠ [] := by rintro rfl; simp [dangling] at hd
      simp [step, overflow, hlong, hne, closing, hd]
    | false =>
      by_cases hne : g = []
      · simp [hne, unstuff, step]
      · have hu := unstuff_ne_nil hne hd
        simp [step, overflow, hlong, hne, hu, finish_holding hd]

theorem run_closed_segment {g : Bytes} (hg : delimiter ∉ g) :
    (ready.run (g ++ [delimiter])).1 = ready ∧
      loud (ready.run (g ++ [delimiter])).2 = (verdict g).toList := by
  obtain ⟨hstate, hloud⟩ := run_segment hg
  rw [run_append, hstate]
  simp only [run, loud_append, hloud, step_holding_delimiter, step_delimiter_state, true_and]
  by_cases hne : g = []
  · simp [hne, loud, verdict, overflow, unstuff, capacity]
  · cases ho : overflow g with
    | some signal => simp [hne, loud, verdict, ho]
    | none => simp [hne, loud, verdict, ho, closing_ne_quiet]

end MoteLink.Receiver
