import Mathlib.Data.Int.Bitwise
import MoteLink.Proofs.Frame.RoundTrip

/-! What holds of a receiver after any calls. Its content never outgrows the capacity and is empty
in the hunt, an integer that is no byte changes nothing, and what it hands out can be sent again.
Main statement: `bounded_after`. -/

namespace MoteLink.Receiver
open MoteLink.Frame Signal

inductive Call where
  | offer (n : Int)
  | reset
  | finish
  deriving DecidableEq, Repr

/-- The receiver after a call, and what the call answers. A call that faults leaves the receiver. -/
def Call.on (r : Receiver) : Call → Receiver × Except Fault Signal
  | .offer n =>
    match r.offer n with
    | .ok (r', signal) => (r', .ok signal)
    | .error fault => (r, .error fault)
  | .reset => ({}, .ok .quiet)
  | .finish => (r.finish.1, .ok r.finish.2)

/-- A fresh receiver after some calls. -/
def after (calls : List Call) : Receiver := calls.foldl (fun r call => (call.on r).1) {}

structure Bounded (r : Receiver) : Prop where
  length_le : r.content.length ≤ capacity
  hunting : r.phase = .hunting → r.content = []

def IsByte (n : Int) : Prop := 0 ≤ n ∧ n < 256

instance : DecidablePred IsByte := fun _ => inferInstanceAs (Decidable (_ ∧ _))

/-- The content with an integer behind it. -/
def appended (content : Bytes) (n : Int) : Except Fault Bytes :=
  if IsByte n then .ok (content ++ [UInt8.ofNat n.toNat]) else .error .byteRange

def checked (r : Receiver) : Receiver × Signal :=
  if capacity < r.content.length then ({}, .dropped (.tooLong r.content.length)) else (r, .quiet)

/-- An offer where the integer is compared and flipped as it is, is looked at as a byte only when it
is collected, and where the capacity is checked last, whatever came before. -/
def offerWide (r : Receiver) (n : Int) : Except Fault (Receiver × Signal) :=
  match r.phase with
  | .hunting => .ok (checked (if n = 0x7E then { phase := .inside } else r))
  | .inside =>
    if n = 0x7E then .ok (if r.content.isEmpty then checked r else r.finish)
    else if n = 0x7D then .ok (checked { r with phase := .escaped })
    else (appended r.content n).map fun content => checked { phase := .inside, content }
  | .escaped =>
    if n = 0x7E then .ok ({ phase := .inside }, .dropped .brokenEscape)
    else
      (appended r.content (Int.xor n 0x20)).map fun content => checked { phase := .inside, content }

theorem Bounded.empty (phase : Phase) : Bounded { phase, content := [] } :=
  ⟨Nat.zero_le _, fun _ => rfl⟩

theorem bounded_collect (r : Receiver) (b : UInt8) : (r.collect b).1.Bounded := by
  simp only [collect]
  split
  · exact .empty .hunting
  · rename_i hfit
    exact ⟨Nat.not_lt.1 hfit, by simp⟩

theorem Bounded.step {r : Receiver} (h : r.Bounded) (b : UInt8) : (r.step b).1.Bounded := by
  unfold Receiver.step
  cases hphase : r.phase with
  | hunting =>
    dsimp only
    split
    · exact .empty .inside
    · exact h
  | inside =>
    dsimp only
    split
    · split
      · exact h
      · exact .empty r.phase
    · split
      · exact ⟨h.length_le, nofun⟩
      · exact bounded_collect r b
  | escaped =>
    dsimp only
    split
    · exact .empty .inside
    · exact bounded_collect r (toggle b)

theorem offer_of_byte (r : Receiver) {n : Int} (h : IsByte n) :
    r.offer n = .ok (r.step (UInt8.ofNat n.toNat)) := if_pos h

theorem offer_of_not_byte (r : Receiver) {n : Int} (h : ¬ IsByte n) :
    r.offer n = if r.phase = .hunting then .ok (r, .quiet) else .error .byteRange := if_neg h

theorem Call.on_byte (r : Receiver) {n : Int} (h : IsByte n) :
    (Call.offer n).on r =
      ((r.step (UInt8.ofNat n.toNat)).1, .ok (r.step (UInt8.ofNat n.toNat)).2) := by
  rw [Call.on, offer_of_byte r h]

theorem Call.on_not_byte (r : Receiver) {n : Int} (h : ¬ IsByte n) :
    (Call.offer n).on r =
      (r, if r.phase = .hunting then .ok .quiet else .error .byteRange) := by
  rw [Call.on, offer_of_not_byte r h]
  by_cases hphase : r.phase = .hunting <;> simp [hphase]

theorem Bounded.on {r : Receiver} (h : r.Bounded) (call : Call) : (call.on r).1.Bounded := by
  cases call with
  | offer n =>
    by_cases hn : IsByte n
    · rw [Call.on_byte r hn]
      exact h.step _
    · rw [Call.on_not_byte r hn]
      exact h
  | reset => exact .empty .hunting
  | finish => exact .empty r.phase

theorem bounded_foldl (calls : List Call) {r : Receiver} (h : r.Bounded) :
    (calls.foldl (fun r call => (call.on r).1) r).Bounded := by
  induction calls generalizing r with
  | nil => exact h
  | cons call rest ih => exact ih (h.on call)

/-- Where the capacity is kept, only collecting can exceed it. -/
theorem Bounded.checked {r : Receiver} (h : r.Bounded) : r.checked = (r, .quiet) :=
  if_neg (Nat.not_lt.2 h.length_le)

theorem isByte_xor (n : Int) : IsByte (Int.xor n 0x20) ↔ IsByte n := by
  cases n with
  | ofNat m =>
    have hxor : Int.xor (.ofNat m) 0x20 = ((m ^^^ 0x20 : Nat) : Int) := rfl
    have hsmall : ∀ k, k < 256 → k ^^^ 0x20 < 256 :=
      fun k hk => Nat.xor_lt_two_pow (n := 8) hk (by decide)
    have hback : m ^^^ 0x20 < 256 → m < 256 := by
      intro h
      simpa only [Nat.xor_xor_cancel_right] using hsmall _ h
    have hiff : m ^^^ 0x20 < 256 ↔ m < 256 := ⟨hback, hsmall m⟩
    rw [hxor]
    simp only [IsByte, Int.ofNat_eq_natCast]
    omega
  | negSucc m =>
    have hxor : Int.xor (.negSucc m) 0x20 = .negSucc (m ^^^ 0x20) := rfl
    simp [IsByte, hxor]

theorem appended_of_byte (content : Bytes) (b : UInt8) :
    appended content b.toNat = .ok (content ++ [b]) := by
  have hb := b.toNat_lt
  rw [appended, if_pos ⟨by omega, by omega⟩, Int.toNat_natCast, UInt8.ofNat_toNat]

theorem xor_toNat (b : UInt8) : Int.xor b.toNat 0x20 = (toggle b).toNat := rfl

theorem exists_byte {n : Int} (h : IsByte n) : ∃ b : UInt8, n = b.toNat := by
  obtain ⟨hlow, hhigh⟩ := h
  refine ⟨UInt8.ofNat n.toNat, ?_⟩
  rw [UInt8.toNat_ofNat']
  omega

theorem toNat_eq_iff (b c : UInt8) : (b.toNat : Int) = c.toNat ↔ b = c := by
  rw [Int.natCast_inj, UInt8.toNat_inj]

theorem checked_collect (r : Receiver) (b : UInt8) :
    checked { phase := .inside, content := r.content ++ [b] } = r.collect b := rfl

theorem offerWide_byte {r : Receiver} (h : r.Bounded) (b : UInt8) :
    r.offerWide b.toNat = .ok (r.step b) := by
  have hdelimiter : (b.toNat : Int) = 0x7E ↔ b = delimiter := toNat_eq_iff b delimiter
  have hescape : (b.toNat : Int) = 0x7D ↔ b = escapeMark := toNat_eq_iff b escapeMark
  unfold offerWide Receiver.step
  cases hphase : r.phase with
  | hunting =>
    simp only [hdelimiter]
    split
    · rfl
    · rw [h.checked]
  | inside =>
    simp only [hdelimiter, hescape, appended_of_byte, Except.map, checked_collect]
    split
    · split
      · rw [h.checked]
      · rfl
    · split
      · have hescaped : Bounded { r with phase := .escaped } := ⟨h.length_le, nofun⟩
        rw [hescaped.checked]
      · rfl
  | escaped =>
    simp only [hdelimiter, xor_toNat, appended_of_byte, Except.map, checked_collect]
    split <;> rfl

/-- Between deliveries the two ways to take an integer are the same. -/
theorem offerWide_eq {r : Receiver} (h : r.Bounded) (n : Int) : r.offerWide n = r.offer n := by
  by_cases hn : IsByte n
  · obtain ⟨b, rfl⟩ := exists_byte hn
    rw [offerWide_byte h, offer_of_byte r hn, Int.toNat_natCast, UInt8.ofNat_toNat]
  · have hdelimiter : n ≠ 0x7E := by
      rintro rfl
      exact hn (by decide)
    have hescape : n ≠ 0x7D := by
      rintro rfl
      exact hn (by decide)
    have hflipped : ¬ IsByte (Int.xor n 0x20) := mt (isByte_xor n).1 hn
    rw [offer_of_not_byte r hn]
    unfold offerWide
    cases hphase : r.phase with
    | hunting => simp [hdelimiter, h.checked]
    | inside => simp [hdelimiter, hescape, appended, hn, Except.map]
    | escaped => simp [hdelimiter, appended, hflipped, Except.map]

theorem judge_of_call {r : Receiver} {call : Call} {body : Bytes}
    (h : (call.on r).2 = .ok (.body body)) : judge r.content = .ok body := by
  cases call with
  | offer n =>
    by_cases hn : IsByte n
    · rw [Call.on_byte r hn] at h
      exact judge_of_step (Except.ok.inj h)
    · rw [Call.on_not_byte r hn] at h
      split at h
      · exact nomatch h
      · exact nomatch h
  | reset => exact nomatch h
  | finish => exact judge_of_finish (Except.ok.inj h)

/-- A body comes from content that fits, so it fits a frame. -/
theorem Bounded.fits_of_call {r : Receiver} (h : r.Bounded) {call : Call} {body : Bytes}
    (hbody : (call.on r).2 = .ok (.body body)) : Fits body := by
  obtain ⟨hpos, hlen⟩ := length_of_judge (judge_of_call hbody)
  have hfit : r.content.length ≤ 264 := h.length_le
  exact ⟨hpos, by omega⟩

theorem decode_encode {body : Bytes} (h : Fits body) : decode (encode body) = [body] := by
  obtain ⟨hdecode, -⟩ := decode_append_spell [] body true []
  have hnoise : decode ([] ++ [delimiter]) = [] := rfl
  rw [hnoise, List.nil_append, List.nil_append, List.flatMap_nil, List.append_nil] at hdecode
  rw [hdecode, List.filter_singleton, decide_eq_true h]
  rfl

/-- After any calls the content fits and the hunt holds none; offers can be taken byte by byte or as
plain integers; an integer that is no byte is passed over in the hunt and refused elsewhere, and
changes nothing; and what any further call hands out fits a frame, from which a fresh receiver hands
it out again. -/
theorem bounded_after (calls : List Call) :
    ((after calls).content.length ≤ 264 ∧
        ((after calls).phase = .hunting → (after calls).content = [])) ∧
      (∀ n : Int, (after calls).offer n = (after calls).offerWide n) ∧
      (∀ n : Int, ¬ IsByte n → (Call.offer n).on (after calls) =
        (after calls, if (after calls).phase = .hunting then .ok .quiet else .error .byteRange)) ∧
      ∀ (call : Call) (body : Bytes), (call.on (after calls)).2 = .ok (.body body) →
        1 ≤ body.length ∧ body.length ≤ 262 ∧ decode (encode body) = [body] := by
  have hbounded : (after calls).Bounded := bounded_foldl calls (.empty .hunting)
  refine ⟨⟨hbounded.length_le, hbounded.hunting⟩, fun n => (offerWide_eq hbounded n).symm,
    fun n hn => Call.on_not_byte _ hn, fun call body hbody => ?_⟩
  have hfits := hbounded.fits_of_call hbody
  exact ⟨hfits.1, hfits.2, decode_encode hfits⟩

theorem bounded_after_refused :
    let calls : List Call := [.offer 0x7E, .offer 0x7D, .offer 300, .offer 0x5E, .offer (-1),
      .offer 0x59, .offer 0x9F]
    after calls = { phase := .inside, content := [0x7E, 0x59, 0x9F] } ∧
      ¬ IsByte 300 ∧ (Call.offer 300).on (after calls) = (after calls, .error .byteRange) ∧
      (Call.finish.on (after calls)).2 = .ok (.body [0x7E]) ∧
      decode (encode [0x7E]) = [[0x7E]] := by
  intro calls
  have hcalls : after calls = { phase := .inside, content := [0x7E, 0x59, 0x9F] } := by decide
  have hbody : (Call.finish.on (after calls)).2 = .ok (.body [0x7E]) := by
    rw [hcalls]
    decide +kernel
  have hbyte : ¬ IsByte 300 := by decide
  obtain ⟨-, -, hrefused, hfits⟩ := bounded_after calls
  have hinside : (after calls).phase ≠ .hunting := by
    rw [hcalls]
    decide
  refine ⟨hcalls, hbyte, ?_, hbody, (hfits .finish [0x7E] hbody).2.2⟩
  rw [hrefused 300 hbyte, if_neg hinside]

end MoteLink.Receiver
