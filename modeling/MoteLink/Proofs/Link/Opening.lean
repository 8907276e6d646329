import MoteLink.Proofs.Link.Ledger
import MoteLink.Proofs.Link.Stream
import MoteLink.Proofs.Reader.Loops
import Mathlib.Tactic.SplitIfs

/-! What becomes of a connection when a link that connects does not come to be open. A forwarder
with another version is hung up on; one that cannot be greeted, or is gone before its version has
come, is not, and its connection is lost at the next dial. -/

namespace MoteLink

namespace Answer

/-- The bytes that come before a read fails or brings none. -/
def lead : List Answer → Bytes
  | .chunk (b :: data) :: rest => b :: data ++ lead rest
  | _ => []

theorem lead_chunk {data : Bytes} (h : data ≠ []) (rest : List Answer) :
    lead (.chunk data :: rest) = data ++ lead rest := by
  cases data with
  | nil => exact absurd rfl h
  | cons b data => rfl

theorem lead_leave (data : Bytes) (rest : List Answer) :
    lead (Link.leave data rest) = data ++ lead rest := by
  by_cases h : data = []
  · rw [Link.leave, if_pos h, h, List.nil_append]
  · rw [Link.leave, if_neg h, lead_chunk h]

/-- What an exact read is given, if as much comes. -/
def exactly (size : Nat) (answers : List Answer) : Option Bytes :=
  if size ≤ (lead answers).length then some ((lead answers).take size) else none

theorem exactly_chunk (n : Nat) (b : UInt8) (data : Bytes) (rest : List Answer) :
    exactly (n + 1) (.chunk (b :: data) :: rest) =
      (exactly (n - (data.take n).length) (Link.leave (data.drop n) rest)).map
        ((b :: data.take n) ++ ·) := by
  have hwhole : lead (.chunk (b :: data) :: rest) =
      b :: (data.take n ++ (data.drop n ++ lead rest)) := by
    rw [← List.append_assoc, List.take_append_drop]
    rfl
  have hfront : (data.take n).length ≤ n := List.length_take_le ..
  rw [exactly, exactly, hwhole, lead_leave, List.length_cons, List.length_append,
    List.take_succ_cons, List.take_append, List.take_of_length_le hfront]
  generalize data.drop n ++ lead rest = back
  by_cases hmore : n - (data.take n).length ≤ back.length
  · rw [if_pos hmore, if_pos (by omega)]
    rfl
  · rw [if_neg hmore, if_neg (by omega)]
    rfl

theorem Steady.leave {data : Bytes} {rest : List Answer} (h : Steady (.chunk data :: rest))
    (n : Nat) : Steady (Link.leave (data.drop n) rest) := by
  intro fault hm
  rcases Link.mem_leave hm with ⟨-, he⟩ | hrest
  · exact nomatch he
  · exact h fault (List.mem_cons_of_mem _ hrest)

end Answer

namespace Dial
open Answer

/-- The version goes through to a forwarder, and one comes back. -/
def greets (answers : List Answer) (sends : List (Option Fault)) : Bool :=
  (sends.headD none).isNone && decide (2 ≤ (lead answers).length)

/-- A forwarder that cannot be sent the version, or goes or fails before its own has come. -/
def cutShort (e : Endpoint) : Dial → Bool
  | .refused _ => false
  | .accepted answers sends =>
    match e with
    | .serial .. | .network .. => false
    | .forwarder .. => !greets answers sends

def opens (e : Endpoint) : Dial → Bool
  | .refused _ => false
  | .accepted answers sends =>
    match e with
    | .serial .. | .network .. => true
    | .forwarder .. =>
      greets answers sends && decide ((lead answers).take 1 = Link.version.take 1)

/-- Opens a connection that is not forgotten. -/
def owned (e : Endpoint) (d : Dial) : Bool := d.isAccepted && !d.cutShort e

theorem owned_of_opens {e : Endpoint} {d : Dial} (h : d.opens e) : d.owned e := by
  cases d with
  | refused fault => exact nomatch h
  | accepted answers sends =>
    cases e with
    | serial device baud | network host port => rfl
    | forwarder host port =>
      have hgreets : greets answers sends = true := (Bool.and_eq_true_iff.1 h).1
      simp [owned, isAccepted, cutShort, hgreets]

theorem countP_isAccepted (e : Endpoint) (recording : Recording) :
    recording.countP isAccepted = recording.countP (owned e) + recording.countP (cutShort e) := by
  induction recording with
  | nil => rfl
  | cons d rest ih =>
    rw [List.countP_cons, List.countP_cons, List.countP_cons, ih]
    cases d with
    | refused fault => simp [owned, isAccepted, cutShort]
    | accepted answers sends =>
      cases hcut : cutShort e (.accepted answers sends) <;> simp [owned, isAccepted, hcut] <;> omega

end Dial

namespace Link
open Answer

theorem receiveExactly_chunk (n : Nat) {l : Link} {b : UInt8} {data : Bytes} {rest : List Answer}
    (held : l.connection = some (.chunk (b :: data) :: rest)) :
    receiveExactly (n + 1) l =
      ((receiveExactly (n - (data.take n).length)
        { l with connection := some (leave (data.drop n) rest) }).map
          ((b :: data.take n) ++ ·)).after [.readSocket (n + 1)] := by
  have hreceive := receive_chunk (n + 1) held
  rw [List.take_succ_cons, List.drop_succ_cons] at hreceive
  rw [receiveExactly, if_neg (Nat.succ_ne_zero n), hreceive]
  simp only [Nat.add_sub_add_right]

theorem receiveExactly_stuck (n : Nat) {l : Link} {answers : List Answer}
    (held : l.connection = some answers) (steady : Steady answers) (stuck : lead answers = []) :
    ∃ fault rest, receiveExactly (n + 1) l =
      ⟨.error fault, { l with connection := some rest }, [.readSocket (n + 1)]⟩ := by
  rw [receiveExactly, if_neg (Nat.succ_ne_zero n)]
  cases answers with
  | nil =>
    have hreceive : receive (n + 1) l = ⟨.ok [], l, [.readSocket (n + 1)]⟩ := by
      rw [receive, held]
    have hsame : { l with connection := some [] } = l := by rw [← held]
    rw [hreceive]
    exact ⟨_, [], by rw [hsame]⟩
  | cons answer rest =>
    cases answer with
    | chunk data =>
      cases data with
      | nil =>
        rw [receive_chunk (n + 1) held]
        exact ⟨_, rest, rfl⟩
      | cons b data => cases stuck
    | fails fault =>
      have hreceive : receive (n + 1) l =
          ⟨.error fault, { l with connection := some rest }, [.readSocket (n + 1)]⟩ := by
        rw [receive, held]
        rfl
      rw [hreceive]
      exact ⟨fault, rest, rfl⟩
    | stops fault => exact absurd (List.mem_cons_self ..) (steady fault)

/-- An exact read gives what it was asked for if that much comes, and keeps the connection. -/
theorem receiveExactly_exactly (size : Nat) {l : Link} {answers : List Answer}
    (held : l.connection = some answers) (steady : Steady answers) :
    ∃ result rest t, receiveExactly size l = ⟨result, { l with connection := some rest }, t⟩ ∧
      result.toOption = exactly size answers ∧ t.Still := by
  -- by the bytes still wanted: every chunk that is not empty brings one of them at least
  induction size using Nat.strongRecOn generalizing l answers with
  | ind size ih =>
    cases size with
    | zero =>
      have hsame : { l with connection := some answers } = l := by rw [← held]
      exact ⟨.ok [], answers, [], by rw [receiveExactly, if_pos rfl, hsame], rfl, .nil⟩
    | succ n =>
      have hread : Trace.Still [.readSocket (n + 1)] := .single rfl nofun
      by_cases hstuck : lead answers = []
      · obtain ⟨fault, rest, hfault⟩ := receiveExactly_stuck n held steady hstuck
        exact ⟨_, rest, _, hfault, by simp [exactly, hstuck, Except.toOption], hread⟩
      · obtain ⟨b, data, later, rfl⟩ : ∃ b data later, answers = .chunk (b :: data) :: later := by
          unfold lead at hstuck
          split at hstuck
          · exact ⟨_, _, _, rfl⟩
          · exact absurd rfl hstuck
        obtain ⟨result, rest, t, hrest, hresult, hstill⟩ :=
          ih (n - (data.take n).length) (by omega)
            (l := { l with connection := some (leave (data.drop n) later) }) rfl
            (steady.leave (n + 1))
        refine ⟨_, rest, _, by rw [receiveExactly_chunk n held, hrest]; rfl, ?_,
          hread.append hstill⟩
        rw [exactly_chunk, ← hresult]
        cases result <;> rfl

theorem still_sent (e : Endpoint) (data : Bytes) : Trace.Still [sent e data] := by
  cases e <;> exact .single rfl nofun

theorem greet_lead {l : Link} {answers : List Answer} (held : l.connection = some answers)
    (steady : Steady answers) :
    ∃ rest t, Trace.Still t ∧
      (Dial.greets answers l.sends = false ∧
          (∃ fault, greet l =
            ⟨.error fault, { l with connection := some rest, sends := l.sends.tail }, t⟩) ∨
        Dial.greets answers l.sends ∧
          (if (lead answers).take 1 = version.take 1
            then greet l = ⟨.ok (), { l with connection := some rest, sends := l.sends.tail }, t⟩
            else ∃ fault, greet l =
              ⟨.error fault, { l with connection := none, sends := l.sends.tail },
                t ++ [.close]⟩)) := by
  have hwrite := write_eq (by rw [held]; rfl : l.connection.isSome) version
  have hstill := still_sent l.endpoint version
  cases hrefusal : l.refusal with
  | some fault =>
    have hgreets : Dial.greets answers l.sends = false := by
      rw [Dial.greets, show l.sends.headD none = some fault from hrefusal]
      rfl
    rw [hrefusal] at hwrite
    refine ⟨answers, _, hstill, .inl ⟨hgreets, fault, ?_⟩⟩
    rw [greet, Act.bind_error hwrite, ← held]
  | none =>
    have hgreets : Dial.greets answers l.sends = decide (2 ≤ (lead answers).length) := by
      rw [Dial.greets, show l.sends.headD none = none from hrefusal]
      rfl
    rw [hrefusal] at hwrite
    obtain ⟨result, rest, t, hread, hresult, hrest⟩ :=
      receiveExactly_exactly 2 (l := { l with sends := l.sends.tail }) held steady
    refine ⟨rest, [sent l.endpoint version] ++ t, hstill.append hrest, ?_⟩
    rw [hgreets, greet, Act.bind_ok hwrite]
    rw [exactly] at hresult
    by_cases hlead : 2 ≤ (lead answers).length
    · rw [if_pos hlead] at hresult
      cases result with
      | error fault => cases hresult
      | ok answer =>
        have hanswer : answer.take 1 = (lead answers).take 1 := by
          rw [Option.some.inj hresult, List.take_take]
          rfl
        refine .inr ⟨decide_eq_true hlead, ?_⟩
        rw [← hanswer, Act.bind_ok hread]
        by_cases hversion : answer.take 1 = version.take 1
        · simp [hversion, Outcome.after]
        · simp [hversion, Act.run_bind, close, Outcome.after]
    · rw [if_neg hlead] at hresult
      cases result with
      | ok answer => cases hresult
      | error fault =>
        exact .inl ⟨decide_eq_false hlead, fault, by rw [Act.bind_error hread]; rfl⟩

/-- What connecting may come to, by the entry of the recording that it takes. -/
inductive Attempt (l l' : Link) : Except Fault Unit → Trace → Prop where
  | refused {fault : Fault} (entry : (l.recording.take 1).countP Dial.isAccepted = 0)
      (same : l'.connection = l.connection) : Attempt l l' (.error fault) []
  | opened {t : Trace} {d : Dial} (entry : l.recording = d :: l'.recording)
      (opens : d.opens l.endpoint) (held : l'.connection.isSome) (still : t.Still) :
      Attempt l l' (.ok ()) t
  | cut {t : Trace} {fault : Fault} {d : Dial} (entry : l.recording = d :: l'.recording)
      (cutShort : d.cutShort l.endpoint) (held : l'.connection.isSome) (still : t.Still) :
      Attempt l l' (.error fault) t
  | closed {t : Trace} {fault : Fault} {d : Dial} (entry : l.recording = d :: l'.recording)
      (owned : d.owned l.endpoint) (shut : d.opens l.endpoint = false)
      (unheld : l'.connection = none) (still : t.Still) :
      Attempt l l' (.error fault) (t ++ [.close])

theorem connect_attempt {l : Link}
    (steady : ∀ answers sends, .accepted answers sends ∈ l.recording → Steady answers) :
    ∃ l' result t, connect l = ⟨result, l', dialling l.endpoint :: t⟩ ∧
      l'.endpoint = l.endpoint ∧ l'.recording = l.recording.tail ∧ Attempt l l' result t := by
  obtain ⟨endpoint, recording, connection, sends, receiver, pending, stopping⟩ := l
  cases recording with
  | nil =>
    cases endpoint with
    | serial device baud | network host port | forwarder host port =>
      exact ⟨_, _, _, rfl, rfl, rfl, .refused rfl rfl⟩
  | cons d rest =>
    cases d with
    | refused fault =>
      cases endpoint with
      | serial device baud | network host port | forwarder host port =>
        exact ⟨_, _, _, rfl, rfl, rfl, .refused rfl rfl⟩
    | accepted answers sends' =>
      cases endpoint with
      | serial device baud | network host port =>
        exact ⟨_, _, _, rfl, rfl, rfl, .opened rfl rfl rfl .nil⟩
      | forwarder host port =>
        -- only a forwarder is greeted, and how that goes depends on the bytes it leads with
        have hsteady := steady answers sends' (List.mem_cons_self ..)
        have hconnect : connect
              ⟨.forwarder host port, .accepted answers sends' :: rest, connection, sends, receiver,
                pending, stopping⟩ =
            (greet ⟨.forwarder host port, rest, some answers, sends', receiver, pending,
              stopping⟩).after [.dialHost host port] := rfl
        obtain ⟨left, t, hstill, ⟨hshort, fault, hgreet⟩ | ⟨hgreets, hgreet⟩⟩ :=
          greet_lead (l :=
            ⟨.forwarder host port, rest, some answers, sends', receiver, pending, stopping⟩)
            rfl hsteady
        · have hcut : Dial.cutShort (.forwarder host port) (.accepted answers sends') :=
            congrArg not hshort
          rw [hconnect, hgreet]
          exact ⟨_, _, _, rfl, rfl, rfl, .cut rfl hcut rfl hstill⟩
        · rw [hconnect]
          split_ifs at hgreet with hversion
          · rw [hgreet]
            exact ⟨_, _, _, rfl, rfl, rfl, .opened rfl (by simp_all [Dial.opens]) rfl hstill⟩
          · obtain ⟨fault, hgreet⟩ := hgreet
            rw [hgreet]
            have howned : Dial.owned (.forwarder host port) (.accepted answers sends') := by
              simp_all [Dial.owned, Dial.isAccepted, Dial.cutShort]
            exact ⟨_, _, _, rfl, rfl, rfl, .closed rfl howned (by simp [Dial.opens, hversion]) rfl
              hstill⟩

theorem isDial_dialling (e : Endpoint) : (dialling e).isDial := by cases e <;> rfl

namespace Attempt
variable {l l' : Link} {result : Except Fault Unit} {t : Trace}

theorem dials (h : Attempt l l' result t) : Trace.dials (dialling l.endpoint :: t) = 1 := by
  have hrest : t.dials = 0 := by
    cases h with
    | refused entry same => rfl
    | opened entry opens held still => exact still.dials
    | cut entry cutShort held still => exact still.dials
    | closed entry owned shut unheld still => rw [Trace.dials_append, still.dials]; rfl
  rw [Trace.dials_dial (isDial_dialling _), hrest]

theorem opens_iff (h : Attempt l l' result t) :
    result = .ok () ↔ ∃ d ∈ l.recording.head?, d.opens l.endpoint := by
  cases h with
  | refused entry same =>
    refine ⟨nofun, fun ⟨d, hd, hopens⟩ => ?_⟩
    obtain ⟨rest, hrest⟩ := List.head?_eq_some_iff.1 hd
    have howned := Dial.owned_of_opens hopens
    simp_all [Dial.owned]
  | opened entry opens held still => exact ⟨fun _ => ⟨_, by rw [entry]; rfl, opens⟩, fun _ => rfl⟩
  | cut entry cutShort held still =>
    refine ⟨nofun, fun ⟨d, hd, hopens⟩ => ?_⟩
    rw [entry] at hd
    obtain rfl := Option.some.inj hd
    have howned := Dial.owned_of_opens hopens
    simp [Dial.owned, cutShort] at howned
  | closed entry owned shut unheld still =>
    refine ⟨nofun, fun ⟨d, hd, hopens⟩ => ?_⟩
    rw [entry] at hd
    obtain rfl := Option.some.inj hd
    exact absurd hopens (by simp [shut])

theorem tidy {fault : Fault} (h : Attempt l l' (.error fault) t) :
    Trace.Tidy (Dial.owned l.endpoint) l.recording (dialling l.endpoint :: t) := by
  have hdial := isDial_dialling l.endpoint
  cases h with
  | refused entry same =>
    refine Trace.tidy_dial hdial .nil ?_
    have hsplit := Dial.countP_isAccepted l.endpoint (l.recording.take 1)
    omega
  | cut entry cutShort held still =>
    refine Trace.tidy_dial hdial still ?_
    rw [entry]
    simp [Dial.owned, cutShort]
  | closed entry owned shut unheld still =>
    refine Trace.tidy_dial_close hdial still ?_
    rw [entry]
    simp [owned]

theorem connection {fault : Fault} (h : Attempt l l' (.error fault) t)
    (unheld : l.connection = none) :
    l'.connection = none ↔ (l.recording.take 1).countP (Dial.cutShort l.endpoint) = 0 := by
  cases h with
  | refused entry same =>
    have hsplit := Dial.countP_isAccepted l.endpoint (l.recording.take 1)
    exact ⟨fun _ => by omega, fun _ => same.trans unheld⟩
  | cut entry cutShort held still =>
    rw [entry]
    refine ⟨fun hnone => ?_, fun hcount => ?_⟩
    · rw [hnone] at held
      exact nomatch held
    · simp [cutShort] at hcount
  | closed entry owned shut unheld still =>
    simp only [Dial.owned, Bool.and_eq_true, Bool.not_eq_true'] at owned
    rw [entry]
    exact ⟨fun _ => by simp [owned.2], fun _ => unheld⟩

end Attempt

/-- The entries dialled that were cut short. -/
def lost (l : Link) (t : Trace) : Nat :=
  (l.recording.take t.dials).countP (Dial.cutShort l.endpoint)

theorem lost_of_framed {l : Link} (framed : l.endpoint.Framed) (t : Trace) : l.lost t = 0 := by
  refine List.countP_eq_zero.2 fun d _ => ?_
  cases d with
  | refused fault => nofun
  | accepted answers =>
    rcases he : l.endpoint with ⟨device, baud⟩ | ⟨host, port⟩ | ⟨host, port⟩
    · nofun
    · nofun
    · rw [he] at framed
      exact framed.elim

theorem live_eq_lost_add (l : Link) (t : Trace) :
    Trace.live Dial.isAccepted l.recording t =
      l.lost t + Trace.live (Dial.owned l.endpoint) l.recording t := by
  rw [lost, Trace.live, Trace.live, Dial.countP_isAccepted l.endpoint]
  omega

section
variable {ι ν : Type} {hear : Hearing Link ι ν}

theorem rounds_tidy (n : Nat) {r : Reader Link ι ν}
    (steady : ∀ answers sends, .accepted answers sends ∈ r.source.recording → Steady answers)
    (shut : ∀ d ∈ r.source.recording, d.opens r.source.endpoint = false) :
    Trace.Tidy (Dial.owned r.source.endpoint) r.source.recording
      (Reader.rounds hear n r).trace := by
  induction n generalizing r with
  | zero => exact Trace.Still.nil.tidy _ _
  | succ n ih =>
    cases hgoing : r.stopping with
    | true =>
      rw [Reader.rounds_of_stopping _ hgoing]
      exact Trace.Still.nil.tidy _ _
    | false =>
      obtain ⟨l', result, t, hconnect, hendpoint, hrecording, hattempt⟩ := connect_attempt steady
      cases result with
      | ok _ =>
        obtain ⟨d, hd, hopens⟩ := hattempt.opens_iff.1 rfl
        rw [shut d (List.mem_of_mem_head? hd)] at hopens
        exact nomatch hopens
      | error fault =>
        have hstill (notices : Trace) (h : ∀ e ∈ notices, e.isDial = false ∧ e ≠ .close) :
            Trace.Tidy (Dial.owned r.source.endpoint) r.source.recording
              (dialling r.source.endpoint :: t ++ notices) :=
          hattempt.tidy.append (Trace.Still.tidy _ _ h)
        rw [Reader.rounds_of_fault n hgoing (Reader.session_of_fault hconnect)]
        split_ifs with hinterrupt hstopped hrevive
        · exact hattempt.tidy
        · exact hattempt.tidy
        -- the first try dialled one entry, so the others go on with the rest of the recording
        · have hrest : Trace.Tidy (Dial.owned l'.endpoint) l'.recording
              (Reader.rounds hear n { r with source := l' }).trace := by
            apply ih (r := { r with source := l' })
            · exact fun answers sends hm =>
                steady answers sends (List.mem_of_mem_tail (hrecording ▸ hm))
            · intro d hm
              rw [hendpoint]
              exact shut d (List.mem_of_mem_tail (hrecording ▸ hm))
          rw [hendpoint, hrecording, ← List.drop_one] at hrest
          refine (hstill _ (by simp [Event.isDial])).append ?_
          rw [Trace.dials_append, hattempt.dials]
          exact hrest
        · exact hstill _ (by simp [Event.isDial])

/-- Connecting gives a link exactly if the entry dialled opens. If it faults, the connection is over
unless it was cut short; then it is still open and held. While no entry opens, a reader has at most
one connection open besides those that were cut short, and those stay open for good. -/
theorem failed_connect_lost {l : Link} (unheld : l.connection = none)
    (steady : ∀ answers sends, .accepted answers sends ∈ l.recording → Steady answers) :
    ((connect l).result = .ok () ↔ ∃ d ∈ l.recording.head?, d.opens l.endpoint) ∧
      (l.endpoint.Framed → ∀ t, l.lost t = 0) ∧
      ((connect l).result ≠ .ok () →
        Trace.live Dial.isAccepted l.recording (connect l).trace = l.lost (connect l).trace ∧
          ((connect l).state.connection = none ↔ l.lost (connect l).trace = 0)) ∧
      ((∀ d ∈ l.recording, d.opens l.endpoint = false) →
        ∀ (hear : Hearing Link ι ν) (r : Reader Link ι ν), r.source = l →
          let t := (Reader.run hear r).trace
          Trace.live Dial.isAccepted l.recording t = l.lost t ∧
            ∀ u v, t = u ++ v → l.lost u ≤ Trace.live Dial.isAccepted l.recording u ∧
              Trace.live Dial.isAccepted l.recording u ≤ l.lost u + 1) := by
  obtain ⟨l', result, t, hconnect, -, -, hattempt⟩ := connect_attempt steady
  rw [hconnect]
  refine ⟨hattempt.opens_iff, lost_of_framed, fun hfault => ?_, fun shut hear r hsource => ?_⟩
  · cases result with
    | ok _ => exact absurd rfl hfault
    | error fault =>
      rw [live_eq_lost_add, hattempt.tidy.settled, lost, hattempt.dials]
      exact ⟨Int.add_zero _, hattempt.connection unheld⟩
  · subst hsource
    have htidy : Trace.Tidy (Dial.owned r.source.endpoint) r.source.recording
        (Reader.run hear r).trace := rounds_tidy _ steady shut
    refine ⟨by rw [live_eq_lost_add, htidy.settled, Int.add_zero], fun u v hsplit => ?_⟩
    have hsingle := htidy.single u v hsplit
    rw [live_eq_lost_add]
    omega

end

theorem failed_connect_lost_second :
    let l : Link :=
      { endpoint := .forwarder "h" 1
        recording := [.accepted [.chunk [0x41], .chunk [0x20, 7]], .accepted [.chunk [0x55]]] }
    let r : Reader Link Unit Unit := { source := l, revive := true, audience := () }
    let t := (Reader.run (fun _ _ => pure ()) r).trace
    (connect l).state.connection = none ∧
      Trace.live Dial.isAccepted l.recording (connect l).trace = 0 ∧
      l.lost t = 1 ∧ Trace.live Dial.isAccepted l.recording t = 1 := by
  intro l r t
  have hsteady : ∀ answers sends, .accepted answers sends ∈ l.recording → Steady answers := by
    rintro answers sends (_ | ⟨_, _ | ⟨_, hnone⟩⟩) fault hm
    · simp at hm
    · simp at hm
    · exact nomatch hnone
  obtain ⟨hopens, -, hfailed, hrun⟩ :=
    failed_connect_lost (ι := Unit) (ν := Unit) (l := l) rfl hsteady
  have hfault : (connect l).result ≠ .ok () := by
    rw [Ne, hopens]
    decide
  obtain ⟨hlive, hunheld⟩ := hfailed hfault
  have hlost : l.lost (connect l).trace = 0 := by decide +kernel
  have hruns : l.lost t = 1 := by decide +kernel
  refine ⟨hunheld.2 hlost, by rw [hlive, hlost]; rfl, hruns, ?_⟩
  rw [(hrun (by decide) _ r rfl).1, hruns]
  rfl

/-- A version that cannot be sent: nothing is read then, and nothing closes the connection. -/
example :
    let l : Link :=
      { endpoint := .forwarder "h" 1
        recording := [.accepted [.chunk [0x55, 0x20]] [some (.outside .reset "reset")]] }
    (connect l).trace = [.dialHost "h" 1, .writeSocket [0x55, 0x20]] ∧
      (connect l).state.connection = some [.chunk [0x55, 0x20]] := by
  decide +kernel

/-- A forwarder that accepts and says nothing: connecting faults, and nothing closes the connection.
A reader that tries again has two of them open. -/
theorem silent_forwarder :
    let l : Link := { endpoint := .forwarder "h" 1, recording := [.accepted [], .accepted []] }
    let r : Reader Link Unit Unit := { source := l, revive := true, audience := () }
    l.connection = none ∧ (connect l).result = .error (.closed "sf@h:1") ∧
      (connect l).state.connection = some [] ∧
      (connect l).trace = [.dialHost "h" 1, .writeSocket [0x55, 0x20], .readSocket 2] ∧
      Trace.live Dial.isAccepted l.recording (Reader.run (fun _ _ => pure ()) r).trace = 2 := by
  have hread (l : Link) (held : l.connection = some []) :
      receiveExactly 2 l = ⟨.error (.closed l.describe), l, [.readSocket 2]⟩ := by
    rw [receiveExactly, receive, held]
    rfl
  have hgreet (l : Link) (held : l.connection = some []) (clear : l.refusal = none) :
      (greet l).result = .error (.closed l.describe) := by
    have hwrite := write_eq (by rw [held]; rfl : l.connection.isSome) version
    rw [clear] at hwrite
    rw [greet, Act.bind_ok hwrite, Act.bind_error (hread { l with sends := l.sends.tail } held)]
    rfl
  refine ⟨rfl, ?_, ?_⟩
  · exact hgreet
      { endpoint := .forwarder "h" 1, recording := [.accepted []], connection := some [] } rfl rfl
  · decide +kernel

end Link
end MoteLink
