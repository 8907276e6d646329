import MoteLink.Proofs.Trace
import MoteLink.Reader.Basic

/-! One round of a reader's loops, by what opening the source and reading it came to. -/

namespace MoteLink.Reader
variable {σ ι ν : Type} [PacketFeed σ] {hear : Hearing σ ι ν}

theorem recover_eq (fault : Fault) (r : Reader σ ι ν) :
    recover fault r =
      if fault.isInterrupt then ⟨.error fault, r, []⟩
      else if fault.isLink && r.stopping then ⟨.ok false, r, []⟩
      else if fault.isLink && r.revive then
        ⟨.ok true, r, [.notice (.died r.describe fault), .sleep pause]⟩
      else ⟨.ok false, { r with kept := some fault }, [.notice (.died r.describe fault)]⟩ := by
  have hreport : report fault r = ⟨.ok (), r, [.notice (.died r.describe fault)]⟩ := rfl
  have hkeep : keep fault r = ⟨.ok (), { r with kept := some fault }, []⟩ := rfl
  unfold recover
  cases hinterrupt : fault.isInterrupt <;> cases hlink : fault.isLink <;>
    cases hstopping : r.stopping <;> cases hrevive : r.revive <;>
    simp [-bind_pure_comp, Act.run_bind, hreport, hkeep, hstopping, hrevive, Outcome.after]

theorem session_of_fault {r : Reader σ ι ν} {s : σ} {fault : Fault} {t : Trace}
    (h : PacketFeed.connect r.source = ⟨.error fault, s, t⟩) :
    session hear r = ⟨.error fault, { r with source := s }, t⟩ := by
  have hconnect : onSource PacketFeed.connect r = ⟨.error fault, { r with source := s }, t⟩ := by
    rw [onSource, Act.within, h]
  exact Act.bind_error hconnect _

theorem rounds_of_stopping (n : Nat) {r : Reader σ ι ν} (h : r.stopping) :
    rounds hear n r = ⟨.ok (), r, []⟩ := by
  cases n with
  | zero => rfl
  | succ n => simp [rounds, Act.run_bind, h]

theorem rounds_of_ok (n : Nat) {r r' : Reader σ ι ν} {t : Trace} (going : r.stopping = false)
    (h : session hear r = ⟨.ok (), r', t⟩) :
    rounds hear (n + 1) r = (rounds hear n r').after t := by
  simp [rounds, Act.run_bind, going, Act.attempt, h, Outcome.after]

theorem rounds_of_fault (n : Nat) {r r' : Reader σ ι ν} {fault : Fault} {t : Trace}
    (going : r.stopping = false) (h : session hear r = ⟨.error fault, r', t⟩) :
    rounds hear (n + 1) r =
      if fault.isInterrupt then ⟨.error fault, r', t⟩
      else if fault.isLink && r'.stopping then ⟨.ok (), r', t⟩
      else if fault.isLink && r'.revive then
        (rounds hear n r').after (t ++ [.notice (.died r'.describe fault), .sleep pause])
      else ⟨.ok (), { r' with kept := some fault },
        t ++ [.notice (.died r'.describe fault)]⟩ := by
  have hattempt : Act.attempt (session hear) r = ⟨.ok (.error fault), r', t⟩ := by
    rw [Act.attempt, h]
  cases hinterrupt : fault.isInterrupt <;> cases hlink : fault.isLink <;>
    cases hstopping : r'.stopping <;> cases hrevive : r'.revive <;>
    simp [rounds, Act.run_bind, going, hattempt, recover_eq, Outcome.after, hinterrupt, hlink,
      hstopping, hrevive]

end MoteLink.Reader
