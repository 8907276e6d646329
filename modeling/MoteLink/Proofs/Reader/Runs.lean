import MoteLink.Proofs.Contract
import MoteLink.Proofs.Reader.Loops
import Mathlib.Tactic.SplitIfs

/-! The loops of a reader as relations, without a count of the rounds. A source that has less left
each time it is opened or read comes to its end by itself, so the counted loops never stop for want
of rounds: `run_runs`. -/

namespace MoteLink

/-- Opening and reading take something off a source; only an opening that fails for another cause
than the link may leave it as it was. -/
class FadingFeed (σ : Type) [PacketFeed σ] : Prop where
  connect_lt (s : σ) :
    (∀ fault, (PacketFeed.connect s).result = .error fault → fault.isLink) →
      PacketFeed.remaining (PacketFeed.connect s).state < PacketFeed.remaining s
  read_lt (s : σ) (packet : Bytes) :
    (PacketFeed.read s).result = .ok packet →
      PacketFeed.remaining (PacketFeed.read s).state < PacketFeed.remaining s

/-- The same contract, but for the events. -/
def Act.Contract.aloud (c : Act.Contract σ) : Act.Contract σ := { c with event := fun _ => True }

namespace Reader
variable {σ ι ν : Type}

theorem source_of_onSource {x : Act σ α} {r r' : Reader σ ι ν} {result : Except Fault α}
    {t : Trace} (h : onSource x r = ⟨result, r', t⟩) : x r.source = ⟨result, r'.source, t⟩ := by
  obtain ⟨hresult, hstate, htrace⟩ := Outcome.mk.inj h
  rw [← hresult, ← hstate, ← htrace]

theorem others_of_onSource {x : Act σ α} {r r' : Reader σ ι ν} {result : Except Fault α}
    {t : Trace} (h : onSource x r = ⟨result, r', t⟩) : r' = { r with source := r'.source } := by
  obtain ⟨-, rfl, -⟩ := Outcome.mk.inj h
  rfl

theorem keeps_deliver {c : Act.Contract (Reader σ ι ν)} {hear : Hearing σ ι ν}
    (h : ∀ listener packet, c.Keeps (hear listener packet)) (packet : Bytes) :
    c.Keeps (deliver hear packet) :=
  .bind (.look _) fun listeners => .each (fun listener => h listener packet) listeners

variable [PacketFeed σ]

/-- Packets read and delivered, until a stop or a fault. -/
inductive Pumps (hear : Hearing σ ι ν) : Reader σ ι ν → Outcome (Reader σ ι ν) Unit → Prop where
  | stopped {r} (stopping : r.stopping) : Pumps hear r ⟨.ok (), r, []⟩
  | unread {r r' fault t} (going : r.stopping = false)
      (read : onSource PacketFeed.read r = ⟨.error fault, r', t⟩) :
      Pumps hear r ⟨.error fault, r', t⟩
  | unheard {r r' r'' packet fault t u} (going : r.stopping = false)
      (read : onSource PacketFeed.read r = ⟨.ok packet, r', t⟩)
      (heard : deliver hear packet r' = ⟨.error fault, r'', u⟩) :
      Pumps hear r ⟨.error fault, r'', t ++ u⟩
  | heard {r r' r'' packet t u o} (going : r.stopping = false)
      (read : onSource PacketFeed.read r = ⟨.ok packet, r', t⟩)
      (heard : deliver hear packet r' = ⟨.ok (), r'', u⟩) (rest : Pumps hear r'' o) :
      Pumps hear r (o.after (t ++ u))

/-- One opening of the source, and what was read until it was closed. -/
inductive Visits (hear : Hearing σ ι ν) : Reader σ ι ν → Outcome (Reader σ ι ν) Unit → Prop where
  | shut {r r' fault t} (connect : onSource PacketFeed.connect r = ⟨.error fault, r', t⟩) :
      Visits hear r ⟨.error fault, r', t⟩
  | opened {r r' r'' t u closed o} (connect : onSource PacketFeed.connect r = ⟨.ok (), r', t⟩)
      (pumps : Pumps hear r' o) (close : onSource PacketFeed.close o.state = ⟨closed, r'', u⟩) :
      Visits hear r ⟨closed.bind fun _ => o.result, r'', t ++ (o.trace ++ u)⟩

/-- Visits one after another, and how the last one ends the run. -/
inductive Runs (hear : Hearing σ ι ν) :
    Reader σ ι ν → List (Outcome (Reader σ ι ν) Unit) → Outcome (Reader σ ι ν) Unit → Prop where
  | stopped {r} (stopping : r.stopping) : Runs hear r [] ⟨.ok (), r, []⟩
  | again {r o visits o'} (going : r.stopping = false) (visit : Visits hear r o)
      (ok : o.result = .ok ()) (rest : Runs hear o.state visits o') :
      Runs hear r (o :: visits) (o'.after o.trace)
  | interrupted {r o fault} (going : r.stopping = false) (visit : Visits hear r o)
      (failed : o.result = .error fault) (interrupt : fault.isInterrupt) : Runs hear r [o] o
  | released {r o fault} (going : r.stopping = false) (visit : Visits hear r o)
      (failed : o.result = .error fault) (link : fault.isLink) (stopping : o.state.stopping) :
      Runs hear r [o] ⟨.ok (), o.state, o.trace⟩
  | revived {r o fault visits o'} (going : r.stopping = false) (visit : Visits hear r o)
      (failed : o.result = .error fault) (link : fault.isLink)
      (wanted : o.state.stopping = false) (revive : o.state.revive)
      (rest : Runs hear o.state visits o') :
      Runs hear r (o :: visits)
        (o'.after (o.trace ++ [.notice (.died o.state.describe fault), .sleep pause]))
  | kept {r o fault} (going : r.stopping = false) (visit : Visits hear r o)
      (failed : o.result = .error fault) (interrupt : fault.isInterrupt = false)
      (lasting : fault.isLink → o.state.stopping = false ∧ o.state.revive = false) :
      Runs hear r [o] ⟨.ok (), { o.state with kept := some fault },
        o.trace ++ [.notice (.died o.state.describe fault)]⟩

/-- A contract that reading, closing and listening keep, and opening but for its events. Under it
there is never more left to read than before. -/
structure Suits (c : Act.Contract (Reader σ ι ν)) (hear : Hearing σ ι ν) : Prop where
  connect : c.aloud.Keeps (onSource PacketFeed.connect)
  read : c.Keeps (onSource PacketFeed.read)
  close : c.Keeps (onSource PacketFeed.close)
  hear : ∀ listener packet, c.Keeps (hear listener packet)
  remaining : ∀ r r', c.leads r r' → r'.remaining ≤ r.remaining

theorem Pumps.stopping {hear : Hearing σ ι ν} {r : Reader σ ι ν}
    {o : Outcome (Reader σ ι ν) Unit} (h : Pumps hear r o) (ok : o.result = .ok ()) :
    o.state.stopping := by
  induction h with
  | stopped stopping => exact stopping
  | unread going read => exact nomatch ok
  | unheard going read heard => exact nomatch ok
  | heard going read heard rest ih => exact ih ok

theorem Runs.of_stopping {hear : Hearing σ ι ν} {r : Reader σ ι ν}
    {visits : List (Outcome (Reader σ ι ν) Unit)} {o : Outcome (Reader σ ι ν) Unit}
    (h : Runs hear r visits o) (stopping : r.stopping) : visits = [] ∧ o = ⟨.ok (), r, []⟩ := by
  cases h with
  | stopped _ => exact ⟨rfl, rfl⟩
  | again going => simp [stopping] at going
  | interrupted going => simp [stopping] at going
  | released going => simp [stopping] at going
  | revived going => simp [stopping] at going
  | kept going => simp [stopping] at going

section
variable {hear : Hearing σ ι ν} {c : Act.Contract (Reader σ ι ν)} (suits : Suits c hear)
  {r : Reader σ ι ν} {o : Outcome (Reader σ ι ν) Unit}
include suits

theorem Pumps.allows (h : Pumps hear r o) (holds : c.holds r) : c.Allows r o := by
  induction h with
  | @stopped r stopping => exact Act.Contract.Keeps.pure () r holds
  | @unread r r' fault t going read => exact (read ▸ suits.read r holds).error
  | @unheard r r' r'' packet fault t u going read heard =>
    have hread := read ▸ suits.read r holds
    have hheard := heard ▸ keeps_deliver suits.hear packet r' hread.holds
    exact hheard.after hread.leads hread.events
  | @heard r r' r'' packet t u o going read heard rest ih =>
    have hread := read ▸ suits.read r holds
    have hheard := heard ▸ keeps_deliver suits.hear packet r' hread.holds
    have hboth := hheard.after hread.leads hread.events
    exact (ih hheard.holds).after hboth.leads hboth.events

/-- A visit keeps the contract, apart from the events of the opening. -/
theorem Visits.allows (h : Visits hear r o) (holds : c.holds r) :
    c.aloud.Allows r o ∧
      ∃ t, o.trace = (PacketFeed.connect r.source).trace ++ t ∧ ∀ e ∈ t, c.event e := by
  have hconnect := suits.connect r holds
  cases h with
  | @shut r' fault t connect =>
    rw [source_of_onSource connect]
    exact ⟨connect ▸ hconnect, [], (List.append_nil t).symm, fun _ he => absurd he List.not_mem_nil⟩
  | @opened r' r'' t u closed o connect pumps close =>
    rw [connect] at hconnect
    rw [source_of_onSource connect]
    have hread := pumps.allows suits hconnect.holds
    have hall := hread.ensured (close ▸ suits.close o.state hread.holds)
    exact ⟨⟨hall.holds, c.trans hconnect.leads hall.leads, fun _ _ => trivial, hall.faults⟩, _, rfl,
      hall.events⟩

section
variable [FadingFeed σ]

theorem Visits.remaining_lt (h : Visits hear r o) (holds : c.holds r)
    (link : ∀ fault, o.result = .error fault → fault.isLink) :
    o.state.remaining < r.remaining := by
  have hconnect := suits.connect r holds
  have hfading := FadingFeed.connect_lt r.source
  cases h with
  | @shut r' fault t connect =>
    rw [source_of_onSource connect] at hfading
    exact hfading link
  | @opened r' r'' t u closed o connect pumps close =>
    rw [connect] at hconnect
    rw [source_of_onSource connect] at hfading
    have hread := pumps.allows suits hconnect.holds
    have hclose := close ▸ suits.close o.state hread.holds
    exact Nat.lt_of_le_of_lt (suits.remaining _ _ (c.trans hread.leads hclose.leads))
      (hfading nofun)

theorem pump_pumps (n : Nat) {r : Reader σ ι ν} (holds : c.holds r) (enough : r.remaining < n) :
    Pumps hear r (pump hear n r) := by
  induction n generalizing r with
  | zero => exact absurd enough (Nat.not_lt_zero _)
  | succ n ih =>
    cases hgoing : r.stopping with
    | true =>
      have hpump : pump hear (n + 1) r = ⟨.ok (), r, []⟩ := by simp [pump, Act.run_bind, hgoing]
      exact hpump ▸ .stopped hgoing
    | false =>
      have hpump : pump hear (n + 1) r =
          (onSource PacketFeed.read >>= fun packet => deliver hear packet >>= fun _ =>
            pump hear n) r := by
        simp [pump, Act.run_bind, hgoing]
      rw [hpump]
      have hallows := suits.read r holds
      cases hread : onSource PacketFeed.read r with
      | mk result r' t =>
        rw [hread] at hallows
        cases result with
        | error fault => exact Act.bind_error hread _ ▸ .unread hgoing hread
        | ok packet =>
          have hlt := FadingFeed.read_lt r.source packet
          rw [source_of_onSource hread] at hlt
          rw [Act.bind_ok hread]
          have hdeliver := keeps_deliver suits.hear packet r' hallows.holds
          cases hheard : deliver hear packet r' with
          | mk result r'' u =>
            rw [hheard] at hdeliver
            cases result with
            | error fault =>
              rw [Act.bind_error hheard]
              exact .unheard hgoing hread hheard
            | ok _ =>
              rw [Act.bind_ok hheard, Outcome.after_after]
              -- the packet read has made the source smaller, and no listener makes it larger
              have hle : r''.remaining ≤ r'.remaining := suits.remaining _ _ hdeliver.leads
              have hless : r'.remaining < r.remaining := hlt rfl
              exact .heard hgoing hread hheard (ih hdeliver.holds (by omega))

theorem session_visits (holds : c.holds r) : Visits hear r (session hear r) := by
  have hconnect := suits.connect r holds
  cases hopened : onSource PacketFeed.connect r with
  | mk result r' t =>
    rw [hopened] at hconnect
    cases result with
    | error fault =>
      rw [session, Act.bind_error hopened]
      exact .shut hopened
    | ok _ =>
      have hsession : session hear r =
          (Act.ensuring (pump hear (r'.remaining + 1)) (onSource PacketFeed.close) r').after t := by
        rw [session, Act.bind_ok hopened]
        rfl
      have hpumps := pump_pumps suits _ hconnect.holds (Nat.lt_succ_self r'.remaining)
      rw [hsession, Act.run_ensuring]
      exact .opened hopened hpumps rfl

theorem rounds_runs (n : Nat) {r : Reader σ ι ν} (holds : c.holds r) (enough : r.remaining < n) :
    ∃ visits, Runs hear r visits (rounds hear n r) := by
  induction n generalizing r with
  | zero => exact absurd enough (Nat.not_lt_zero _)
  | succ n ih =>
    cases hgoing : r.stopping with
    | true => exact ⟨[], rounds_of_stopping _ hgoing ▸ .stopped hgoing⟩
    | false =>
      -- whatever is followed by another round has taken something off the source
      have hvisits := session_visits suits holds
      have hallows := (hvisits.allows suits holds).1
      have hlt := hvisits.remaining_lt suits holds
      cases hsession : session hear r with
      | mk result r' t =>
        rw [hsession] at hvisits hallows hlt
        cases result with
        | ok _ =>
          rw [rounds_of_ok n hgoing hsession]
          have hless : r'.remaining < r.remaining := hlt nofun
          obtain ⟨visits, hrest⟩ := ih (r := r') hallows.holds (by omega)
          exact ⟨_, .again hgoing hvisits rfl hrest⟩
        | error fault =>
          rw [rounds_of_fault n hgoing hsession]
          split_ifs with hinterrupt hreleased hrevived
          · exact ⟨_, .interrupted hgoing hvisits rfl hinterrupt⟩
          · rw [Bool.and_eq_true] at hreleased
            exact ⟨_, .released hgoing hvisits rfl hreleased.1 hreleased.2⟩
          · rw [Bool.and_eq_true] at hrevived
            have hless : r'.remaining < r.remaining :=
              hlt fun f hf => Except.error.inj hf ▸ hrevived.1
            obtain ⟨visits, hrest⟩ := ih (r := r') hallows.holds (by omega)
            refine ⟨_, .revived hgoing hvisits rfl hrevived.1 ?_ hrevived.2 hrest⟩
            simpa [hrevived.1] using hreleased
          · refine ⟨_, .kept hgoing hvisits rfl (by simpa using hinterrupt) fun hlink => ?_⟩
            simp_all

/-- A run comes to its end by itself. -/
theorem run_runs (holds : c.holds r) : ∃ visits, Runs hear r visits (run hear r) :=
  rounds_runs suits _ holds (Nat.lt_succ_self _)

end
end
end Reader
end MoteLink
