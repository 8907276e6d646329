import MoteLink.Proofs.Reader.Waning

/-! The visits of a run in detail: the packets handed to listeners, what brought the reading to a
halt, and what closing came to. The relations leave no choice, so where a run comes to a reader it
goes on as the run of that reader does: `run_of_comesTo`. -/

namespace MoteLink

theorem Fault.isInterrupt_of_isLink {fault : Fault} (h : fault.isLink) :
    fault.isInterrupt = false := by
  cases fault with
  | outside kind text => cases kind <;> first | rfl | exact nomatch h
  | _ => rfl

namespace Reader
variable {σ ι ν : Type} [PacketFeed σ]

/-- What brings the reading of an opened source to a halt: a stop, a fault of the source or a fault
of a listener. -/
inductive Halt where
  | stopped
  | unread (fault : Fault)
  | unheard (fault : Fault)
  deriving DecidableEq, Repr

def Halt.result : Halt → Except Fault Unit
  | .stopped => .ok ()
  | .unread fault | .unheard fault => .error fault

/-- Reading from one reader to another, with the packets handed to the listeners, the last of them
included if a listener faulted on it. -/
inductive Reads (hear : Hearing σ ι ν) :
    Reader σ ι ν → List Bytes → Halt → Reader σ ι ν → Trace → Prop where
  | stopped {r} (stopping : r.stopping) : Reads hear r [] .stopped r []
  | unread {r r' fault t} (going : r.stopping = false)
      (read : onSource PacketFeed.read r = ⟨.error fault, r', t⟩) :
      Reads hear r [] (.unread fault) r' t
  | unheard {r r' r'' packet fault t u} (going : r.stopping = false)
      (read : onSource PacketFeed.read r = ⟨.ok packet, r', t⟩)
      (heard : deliver hear packet r' = ⟨.error fault, r'', u⟩) :
      Reads hear r [packet] (.unheard fault) r'' (t ++ u)
  | heard {r r' r'' s packet packets halt t u v} (going : r.stopping = false)
      (read : onSource PacketFeed.read r = ⟨.ok packet, r', t⟩)
      (heard : deliver hear packet r' = ⟨.ok (), r'', u⟩)
      (rest : Reads hear r'' packets halt s v) :
      Reads hear r (packet :: packets) halt s (t ++ u ++ v)

/-- What came of a source that was opened. -/
structure Stay where
  packets : List Bytes
  halt : Halt
  closed : Except Fault Unit

/-- A visit in detail, without a stay if the source did not open. A fault of closing takes the place
of what the reading came to. -/
inductive Stays (hear : Hearing σ ι ν) :
    Reader σ ι ν → Option Stay → Outcome (Reader σ ι ν) Unit → Prop where
  | shut {r r' fault t} (connect : onSource PacketFeed.connect r = ⟨.error fault, r', t⟩) :
      Stays hear r none ⟨.error fault, r', t⟩
  | opened {r r' s r'' packets halt closed t u v}
      (connect : onSource PacketFeed.connect r = ⟨.ok (), r', t⟩)
      (reads : Reads hear r' packets halt s u)
      (close : onSource PacketFeed.close s = ⟨closed, r'', v⟩) :
      Stays hear r (some ⟨packets, halt, closed⟩)
        ⟨closed.bind fun _ => halt.result, r'', t ++ (u ++ v)⟩

/-- Visits one after another, in detail. -/
inductive Stations (hear : Hearing σ ι ν) :
    Reader σ ι ν → List (Option Stay) → List (Outcome (Reader σ ι ν) Unit) → Prop where
  | none {r} : Stations hear r [] []
  | more {r stay stays o visits} (first : Stays hear r stay o)
      (rest : Stations hear o.state stays visits) :
      Stations hear r (stay :: stays) (o :: visits)

/-- A run of the first reader comes, with this trace, to the second, where it looks whether to go
on. -/
inductive ComesTo (hear : Hearing σ ι ν) : Reader σ ι ν → Trace → Reader σ ι ν → Prop where
  | here {r} : ComesTo hear r [] r
  | again {r o t s} (going : r.stopping = false) (visit : Visits hear r o)
      (ok : o.result = .ok ()) (rest : ComesTo hear o.state t s) :
      ComesTo hear r (o.trace ++ t) s
  | revived {r o fault t s} (going : r.stopping = false) (visit : Visits hear r o)
      (failed : o.result = .error fault) (link : fault.isLink)
      (wanted : o.state.stopping = false) (revive : o.state.revive)
      (rest : ComesTo hear o.state t s) :
      ComesTo hear r
        (o.trace ++ [.notice (.died o.state.describe fault), .sleep pause] ++ t) s

section
variable {hear : Hearing σ ι ν} {r s : Reader σ ι ν} {o o' : Outcome (Reader σ ι ν) Unit}
  {stay : Option Stay}

theorem Reads.pumps {packets : List Bytes} {halt : Halt} {t : Trace}
    (h : Reads hear r packets halt s t) : Pumps hear r ⟨halt.result, s, t⟩ := by
  induction h with
  | stopped stopping => exact .stopped stopping
  | unread going read => exact .unread going read
  | unheard going read heard => exact .unheard going read heard
  | heard going read heard rest ih => exact .heard going read heard ih

theorem Pumps.reads (h : Pumps hear r o) :
    ∃ packets halt, Reads hear r packets halt o.state o.trace ∧ o.result = halt.result := by
  induction h with
  | stopped stopping => exact ⟨_, _, .stopped stopping, rfl⟩
  | unread going read => exact ⟨_, _, .unread going read, rfl⟩
  | unheard going read heard => exact ⟨_, _, .unheard going read heard, rfl⟩
  | heard going read heard rest ih =>
    obtain ⟨packets, halt, hreads, hresult⟩ := ih
    exact ⟨_, halt, .heard going read heard hreads, hresult⟩

theorem Stays.visits (h : Stays hear r stay o) : Visits hear r o := by
  cases h with
  | shut connect => exact .shut connect
  | opened connect reads close => exact .opened connect reads.pumps close

theorem Visits.stays (h : Visits hear r o) : ∃ stay, Stays hear r stay o := by
  cases h with
  | shut connect => exact ⟨none, .shut connect⟩
  | opened connect pumps close =>
    obtain ⟨packets, halt, hreads, hresult⟩ := pumps.reads
    rw [hresult]
    exact ⟨some ⟨packets, halt, _⟩, .opened connect hreads close⟩

theorem Runs.stations {visits : List (Outcome (Reader σ ι ν) Unit)} (h : Runs hear r visits o) :
    ∃ stays, Stations hear r stays visits := by
  have last {r : Reader σ ι ν} {o} (visit : Visits hear r o) :
      ∃ stays, Stations hear r stays [o] := by
    obtain ⟨stay, hstay⟩ := visit.stays
    exact ⟨[stay], .more hstay .none⟩
  have first {r : Reader σ ι ν} {o visits} (visit : Visits hear r o)
      (rest : ∃ stays, Stations hear o.state stays visits) :
      ∃ stays, Stations hear r stays (o :: visits) := by
    obtain ⟨stay, hstay⟩ := visit.stays
    obtain ⟨stays, hstays⟩ := rest
    exact ⟨stay :: stays, .more hstay hstays⟩
  induction h with
  | stopped stopping => exact ⟨[], .none⟩
  | again going visit ok rest ih => exact first visit ih
  | interrupted going visit failed interrupt => exact last visit
  | released going visit failed link stopping => exact last visit
  | revived going visit failed link wanted revive rest ih => exact first visit ih
  | kept going visit failed interrupt lasting => exact last visit

theorem Pumps.unique (h : Pumps hear r o) (h' : Pumps hear r o') : o = o' := by
  induction h generalizing o' with
  | stopped stopping => cases h' <;> simp_all
  | unread going read => cases h' <;> simp_all
  | unheard going read heard => cases h' <;> simp_all
  | heard going read heard rest ih =>
    cases h' with
    | stopped stopping => simp_all
    | unread going' read' => simp_all
    | unheard going' read' heard' => simp_all
    | heard going' read' heard' rest' =>
      obtain ⟨hpacket, rfl, rfl⟩ := Outcome.mk.inj (read.symm.trans read')
      obtain rfl := Except.ok.inj hpacket
      obtain ⟨-, rfl, rfl⟩ := Outcome.mk.inj (heard.symm.trans heard')
      rw [ih rest']

theorem Visits.unique (h : Visits hear r o) (h' : Visits hear r o') : o = o' := by
  cases h with
  | shut connect => cases h' <;> simp_all
  | opened connect pumps close =>
    cases h' with
    | shut connect' => simp_all
    | opened connect' pumps' close' =>
      obtain ⟨-, rfl, rfl⟩ := Outcome.mk.inj (connect.symm.trans connect')
      obtain rfl := pumps.unique pumps'
      obtain ⟨rfl, rfl, rfl⟩ := Outcome.mk.inj (close.symm.trans close')
      rfl

end

section
variable [WaningFeed σ] {hear : Hearing σ ι ν}
  (wanes : ∀ listener packet, waning.Keeps (hear listener packet))
include wanes

theorem session_eq_of_visit {r : Reader σ ι ν} {o : Outcome (Reader σ ι ν) Unit}
    (visit : Visits hear r o) : session hear r = o :=
  (session_visits (suits_waning wanes) trivial).unique visit

/-- Rounds beyond what the source has left change nothing. -/
theorem rounds_enough {m n : Nat} {r : Reader σ ι ν} (hm : r.remaining < m)
    (hn : r.remaining < n) : rounds hear m r = rounds hear n r := by
  induction m generalizing n r with
  | zero => exact absurd hm (Nat.not_lt_zero _)
  | succ m ih =>
    obtain ⟨n, rfl⟩ := Nat.exists_eq_succ_of_ne_zero (Nat.ne_zero_of_lt hn)
    cases hgoing : r.stopping with
    | true => rw [rounds_of_stopping _ hgoing, rounds_of_stopping _ hgoing]
    | false =>
      have hlt := (session_visits (suits_waning wanes) trivial).remaining_lt
        (suits_waning wanes) (r := r) trivial
      cases hsession : session hear r with
      | mk result r' t =>
        rw [hsession] at hlt
        cases result with
        | ok _ =>
          have hless : r'.remaining < r.remaining := hlt nofun
          rw [rounds_of_ok m hgoing hsession, rounds_of_ok n hgoing hsession,
            ih (r := r') (n := n) (by omega) (by omega)]
        | error fault =>
          rw [rounds_of_fault m hgoing hsession, rounds_of_fault n hgoing hsession]
          split_ifs with hinterrupt hreleased hrevived
          · rfl
          · rfl
          · rw [Bool.and_eq_true] at hrevived
            have hless : r'.remaining < r.remaining :=
              hlt fun f hf => Except.error.inj hf ▸ hrevived.1
            rw [ih (r := r') (n := n) (by omega) (by omega)]
          · rfl

variable {r s : Reader σ ι ν} {o : Outcome (Reader σ ι ν) Unit}

theorem run_of_ok (going : r.stopping = false) (visit : Visits hear r o)
    (ok : o.result = .ok ()) : run hear r = (run hear o.state).after o.trace := by
  obtain ⟨result, r', t⟩ := o
  obtain rfl : result = .ok () := ok
  have hsession := session_eq_of_visit wanes visit
  have hless : r'.remaining < r.remaining :=
    visit.remaining_lt (suits_waning wanes) trivial nofun
  have hrun : run hear r = rounds hear (r.remaining + 1) r := rfl
  rw [hrun, rounds_of_ok _ going hsession]
  exact congrArg (Outcome.after t) (rounds_enough wanes (by omega) (Nat.lt_succ_self _))

/-- How a run goes on after a visit that faulted. -/
theorem run_of_fault {fault : Fault} (going : r.stopping = false) (visit : Visits hear r o)
    (failed : o.result = .error fault) :
    run hear r =
      if fault.isInterrupt then o
      else if fault.isLink && o.state.stopping then ⟨.ok (), o.state, o.trace⟩
      else if fault.isLink && o.state.revive then
        (run hear o.state).after
          (o.trace ++ [.notice (.died o.state.describe fault), .sleep pause])
      else ⟨.ok (), { o.state with kept := some fault },
        o.trace ++ [.notice (.died o.state.describe fault)]⟩ := by
  obtain ⟨result, r', t⟩ := o
  obtain rfl : result = .error fault := failed
  have hsession := session_eq_of_visit wanes visit
  have hrun : run hear r = rounds hear (r.remaining + 1) r := rfl
  rw [hrun, rounds_of_fault _ going hsession]
  split_ifs with hinterrupt hreleased hrevived
  · rfl
  · rfl
  · rw [Bool.and_eq_true] at hrevived
    have hless : r'.remaining < r.remaining :=
      visit.remaining_lt (suits_waning wanes) trivial
        fun f hf => Except.error.inj hf ▸ hrevived.1
    exact congrArg (Outcome.after _) (rounds_enough wanes (by omega) (Nat.lt_succ_self _))
  · rfl

theorem run_of_comesTo {t : Trace} (h : ComesTo hear r t s) :
    run hear r = (run hear s).after t := by
  induction h with
  | here => rfl
  | again going visit ok rest ih => rw [run_of_ok wanes going visit ok, ih, Outcome.after_after]
  | @revived r o fault t s going visit failed link wanted revive rest ih =>
    have hinterrupt : fault.isInterrupt = false := Fault.isInterrupt_of_isLink link
    rw [run_of_fault wanes going visit failed, ih]
    simp [hinterrupt, link, wanted, revive]

end
end Reader
end MoteLink
