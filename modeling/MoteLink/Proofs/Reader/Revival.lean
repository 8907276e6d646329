import MoteLink.Proofs.Link.Connecting
import MoteLink.Proofs.Link.Draining
import MoteLink.Proofs.Link.Renewal
import MoteLink.Proofs.Pipeline.Session
import MoteLink.Proofs.Reader.Deeds
import MoteLink.Proofs.Reader.Quiet

/-! A reader of a link that carries a stream, over all the connections it opens. No connection has
a part in what is made of the bytes of another, so what the listeners are given is what each
connection holds by itself, one after another. Main statement: `run_hands_out`. -/

namespace MoteLink

namespace Dial

/-- What an attempt to connect and to read on gives, and the fault it ends with. -/
def drawn (e : Endpoint) : Dial → List Bytes × Fault
  | .refused fault => ([], fault)
  | .accepted answers sends =>
    Link.upToFault (Answer.breaking e answers)
      (handed sends (Receiver.decode (Answer.before e answers)))

/-- What is in a connection, by the bytes that can be read from it and the writes that fail. -/
def packets (e : Endpoint) (d : Dial) : List Bytes := (d.drawn e).1

def fault (e : Endpoint) (d : Dial) : Fault := (d.drawn e).2

/-- If no write fails, these are all packets that come before the first read that fails. -/
theorem packets_of_clear (e : Endpoint) (answers : List Answer) {sends : List (Option Fault)}
    (clear : ∀ fault, some fault ∉ sends) :
    packets e (.accepted answers sends) =
      (Receiver.decode (Answer.before e answers)).filterMap packet? := by
  rw [packets, drawn, handed_of_clear clear, Link.upToFault_map_ok]

end Dial

/-- An attempt that meets with no connection ends with the fault of the entry, or with that of a
recording that has no more entries. -/
theorem Link.connect_shut {l : Link} (framed : l.endpoint.Framed)
    (shut : ∀ d ∈ l.recording.head?, d.isAccepted = false) :
    connect l =
      ⟨.error ((l.recording.head?.map (Dial.fault l.endpoint)).getD .exhausted),
        { l with recording := l.recording.tail, receiver := {}, pending := [] },
        [dialling l.endpoint]⟩ := by
  rw [connect_eq framed]
  obtain ⟨endpoint, recording, connection, sends, receiver, pending, stopping⟩ := l
  cases recording with
  | nil => rfl
  | cons d later =>
    cases d with
    | refused fault => rfl
    | accepted answers sends => exact nomatch shut _ rfl

namespace Reader
open Link Answer
variable {ι ν : Type}

/-- One read of a link that carries a stream, by a reader. -/
theorem read_drained {r r' : Reader Link ι ν} {result : Except Fault Bytes} {t : Trace}
    (framed : r.source.endpoint.Framed) (held : r.source.connection = some r.source.script)
    (read : onSource PacketFeed.read r = ⟨result, r', t⟩) :
    Drains .packets r.source ⟨result, r'.source, t⟩ ∧ r'.audience = r.audience ∧
      r'.source.endpoint = r.source.endpoint ∧ r'.source.recording = r.source.recording ∧
      (Steady r.source.script → r'.stopping = r.stopping ∧ Steady r'.source.script) := by
  have hlink : nextPacket r.source = ⟨result, r'.source, t⟩ :=
    (read_eq framed).symm.trans (source_of_onSource read)
  have haudience : r'.audience = r.audience := by rw [others_of_onSource read]
  have hdrains := nextPacket_drains framed held
  have hhandled := carries_handling.nextPacket r.source
  rw [Act.Tracking.Of, hlink] at hhandled
  rw [hlink] at hdrains
  refine ⟨hdrains, haudience, hhandled.endpoint, hhandled.recording, fun steady => ?_⟩
  obtain ⟨signals, hyields⟩ := nextPacket_yields ⟨framed, held, steady⟩
  have hadvanced := hyields.advanced
  rw [hlink] at hadvanced
  exact ⟨hadvanced.stopping, hadvanced.stays.steady⟩

/-- What a link does is not heard by listeners. -/
theorem unheard_link : Unheard Link := by
  have hsilent {l l' : Link} {t : Trace} (h : trading.rel l t l') :
      t.filterMap Event.heard? = [] := by
    refine List.filterMap_eq_nil_iff.2 fun e he => ?_
    have htraffic := h e he
    cases e <;> first | rfl | exact nomatch htraffic
  exact ⟨fun l => hsilent (trading_connect l), fun l => hsilent (carries_trading.read l),
    fun l => hsilent (carries_trading.close l)⟩

section
variable {P : ν → Prop} {hear : Hearing Link ι ν} (quiet : Quiet P hear)
  {r s : Reader Link ι ν} {o : Outcome (Reader Link ι ν) Unit}
include quiet

theorem suits_quiet : Suits (polite P) hear where
  connect := keeps_polite WaningFeed.connect_le
  read := keeps_polite WaningFeed.read_le
  close := keeps_polite WaningFeed.close_le
  hear := fun listener packet r holds => by
    have hsame := quiet.source listener packet r holds
    refine ⟨quiet.stays listener packet r holds, ⟨?_, quiet.revive listener packet r holds⟩,
      fun _ _ => trivial, fun _ _ => trivial⟩
    rw [remaining, hsame]
    exact Nat.le_refl _
  remaining _ _ h := h.1

/-- The listeners get what a connection has still to give, until a read fails or a packet cannot be
acknowledged. -/
theorem Reads.drained {packets : List Bytes} {halt : Halt} {t : Trace}
    (h : Reads hear r packets halt s t) (holds : P r.audience) (going : r.stopping = false)
    (framed : r.source.endpoint.Framed) (held : r.source.connection = some r.source.script) :
    packets = (r.source.drawn .packets).1 ∧ halt = .unread (r.source.drawn .packets).2 ∧
      s.source.endpoint = r.source.endpoint ∧ s.source.recording = r.source.recording ∧
      (Steady r.source.script → s.stopping = false) := by
  induction h with
  | stopped stopping => simp [going] at stopping
  | unread _ read =>
    obtain ⟨hdrains, -, hendpoint, hrecording, hsteady⟩ := read_drained framed held read
    rw [hdrains.broken _ rfl]
    exact ⟨rfl, rfl, hendpoint, hrecording, fun steady => (hsteady steady).1.trans going⟩
  | unheard _ read heard =>
    obtain ⟨-, haudience, -⟩ := read_drained framed held read
    obtain ⟨r', t, hdeliver, -⟩ := quiet.deliver _ (haudience ▸ holds)
    exact nomatch heard.symm.trans hdeliver
  | @heard r r' r'' s packet packets halt t u v _ read heard rest ih =>
    obtain ⟨hdrains, haudience, hendpoint, hrecording, hsteady⟩ := read_drained framed held read
    obtain ⟨m, w, hdeliver, hsource, hholds⟩ := quiet.deliver packet (haudience ▸ holds)
    obtain ⟨-, rfl, -⟩ := Outcome.mk.inj (heard.symm.trans hdeliver)
    obtain ⟨signals, hmoves, hsends, hvalue⟩ := hdrains.found packet rfl
    -- the listeners have left the link as the read did, so the rest is read from there
    obtain ⟨hpackets, hhalt, hendpoint', hrecording', hstays⟩ := ih hholds
      ((congrArg Link.stopping hsource).trans (hmoves.stopping.trans going))
      (by rw [hsource, hendpoint]; exact framed) (by rw [hsource]; exact hmoves.held)
    rw [hsource] at hpackets hhalt hendpoint' hrecording' hstays
    rw [hmoves.drawn hsends, hvalue, hpackets, hhalt]
    exact ⟨rfl, rfl, hendpoint'.trans hendpoint, hrecording'.trans hrecording,
      fun steady => hstays (hsteady steady).2⟩

/-- One visit of a reader whose link carries a stream. It ends with a fault in any case. -/
structure Stayed (r : Reader Link ι ν) (stay : Option Stay) (o : Outcome (Reader Link ι ν) Unit) :
    Prop where
  endpoint : o.state.source.endpoint = r.source.endpoint
  recording : o.state.source.recording = r.source.recording.tail
  packets : stay.toList.flatMap Stay.packets =
    (r.source.recording.take 1).flatMap (Dial.packets r.source.endpoint)
  fault : o.result = .error ((r.source.recording.head?.map (Dial.fault r.source.endpoint)).getD
    .exhausted)
  stopping : (∀ answers sends, .accepted answers sends ∈ r.source.recording → Steady answers) →
    o.state.stopping = false

omit quiet in
theorem Stays.of_shut {stay : Option Stay} (h : Stays hear r stay o) {fault : Fault} {l : Link}
    {t : Trace} (shut : Link.connect r.source = ⟨.error fault, l, t⟩) :
    stay = none ∧ o.result = .error fault ∧ o.state.source = l := by
  cases h with
  | shut connect =>
    obtain ⟨hfault, rfl, -⟩ := Outcome.mk.inj ((source_of_onSource connect).symm.trans shut)
    exact ⟨rfl, hfault, rfl⟩
  | opened connect reads close => exact nomatch (source_of_onSource connect).symm.trans shut

omit quiet in
theorem Stays.stayed_of_shut {stay : Option Stay} (h : Stays hear r stay o)
    (going : r.stopping = false) (framed : r.source.endpoint.Framed)
    (shut : ∀ d ∈ r.source.recording.head?, d.isAccepted = false) : Stayed r stay o := by
  obtain ⟨rfl, hfault, hsource⟩ := h.of_shut (connect_shut framed shut)
  refine ⟨by rw [hsource], by rw [hsource], ?_, hfault, fun _ => ?_⟩
  · cases hrecording : r.source.recording with
    | nil => rfl
    | cons d later =>
      cases d with
      | refused fault => rfl
      | accepted answers sends => simp [hrecording, Dial.isAccepted] at shut
  · rw [stopping, hsource]
    exact going

theorem Stays.stayed_of_accepted {stay : Option Stay} (h : Stays hear r stay o)
    (holds : P r.audience) (going : r.stopping = false) (framed : r.source.endpoint.Framed)
    {answers : List Answer} {sends : List (Option Fault)} {later : Recording}
    (accepted : r.source.recording = .accepted answers sends :: later) : Stayed r stay o := by
  have hopened := connect_accepted framed accepted
  cases h with
  | shut connect => cases (source_of_onSource connect).symm.trans hopened
  | @opened r' s r'' packets halt closed t u v connect reads close =>
    obtain ⟨-, hsource, -⟩ := Outcome.mk.inj ((source_of_onSource connect).symm.trans hopened)
    have hothers := others_of_onSource connect
    obtain ⟨hpackets, hhalt, hendpoint, hrest, hsteady⟩ := reads.drained quiet
      (by rw [hothers]; exact holds) (by rw [stopping, hsource]; exact going)
      (by rw [hsource]; exact framed) (by rw [hsource]; rfl)
    rw [hsource] at hpackets hhalt hendpoint hrest hsteady
    obtain ⟨w, hclose⟩ := close_unheld s.source
    obtain ⟨rfl, hleft, -⟩ := Outcome.mk.inj ((source_of_onSource close).symm.trans hclose)
    have hdrawn : (r.source.opened answers sends later).drawn .packets =
        Dial.drawn r.source.endpoint (.accepted answers sends) := rfl
    rw [hdrawn] at hpackets hhalt
    refine ⟨by rw [hleft]; exact hendpoint, by rw [hleft, accepted]; exact hrest, ?_, ?_,
      fun steady => ?_⟩
    · rw [accepted, hpackets]
      simp [Dial.packets]
    · rw [accepted, hhalt]
      rfl
    · rw [stopping, hleft]
      exact hsteady (steady answers sends (by rw [accepted]; exact List.mem_cons_self ..))

theorem Stays.stayed {stay : Option Stay} (h : Stays hear r stay o) (holds : P r.audience)
    (going : r.stopping = false) (framed : r.source.endpoint.Framed) : Stayed r stay o := by
  rcases accepted_or_shut r.source.recording with ⟨answers, sends, later, haccepted⟩ | hshut
  · exact h.stayed_of_accepted quiet holds going framed haccepted
  · exact h.stayed_of_shut going framed hshut

/-- Nothing keeps a reader from going through all of a recording. -/
structure Lasting (r : Reader Link ι ν) : Prop where
  going : r.stopping = false
  revive : r.revive
  link : ∀ d ∈ r.source.recording, (d.fault r.source.endpoint).isLink
  steady : ∀ answers sends, .accepted answers sends ∈ r.source.recording → Steady answers

omit quiet in
theorem Stayed.ending {stay : Option Stay} (h : Stayed r stay o) (lasting : Lasting r)
    {fault : Fault} (failed : o.result = .error fault) :
    fault.isInterrupt = false ∧ (fault.isLink = false → r.source.recording = []) := by
  obtain rfl := Except.error.inj (h.fault.symm.trans failed)
  cases hrecording : r.source.recording with
  | nil => exact ⟨rfl, fun _ => rfl⟩
  | cons d later =>
    have hlink : (d.fault r.source.endpoint).isLink :=
      lasting.link d (by rw [hrecording]; exact List.mem_cons_self ..)
    exact ⟨Fault.isInterrupt_of_isLink hlink, fun hother => nomatch hother.symm.trans hlink⟩

omit quiet in
theorem Stayed.lasting {stay : Option Stay} (h : Stayed r stay o) (lasting : Lasting r)
    (revive : o.state.revive = r.revive) : Lasting o.state := by
  refine ⟨h.stopping lasting.steady, revive.trans lasting.revive, fun d hd => ?_,
    fun answers sends hanswers => ?_⟩
  · rw [h.endpoint]
    exact lasting.link d (List.mem_of_mem_tail (h.recording ▸ hd))
  · exact lasting.steady answers sends (List.mem_of_mem_tail (h.recording ▸ hanswers))

/-- What the listeners get in a run is what is in the entries it takes, entry by entry. -/
theorem Runs.hands_out {visits : List (Outcome (Reader Link ι ν) Unit)}
    {stays : List (Option Stay)} (h : Runs hear r visits o)
    (stations : Stations hear r stays visits) (holds : P r.audience)
    (framed : r.source.endpoint.Framed) :
    (stays.filterMap id).flatMap Stay.packets =
        (r.source.recording.take stays.length).flatMap (Dial.packets r.source.endpoint) ∧
      (Lasting r → stays.length = r.source.recording.length + 1) := by
  have hlast {r : Reader Link ι ν} {stay : Option Stay} {o : Outcome (Reader Link ι ν) Unit}
      (stayed : Stayed r stay o) :
      ([stay].filterMap id).flatMap Stay.packets =
        (r.source.recording.take 1).flatMap (Dial.packets r.source.endpoint) := by
    rw [packets_single, stayed.packets]
  have hkeeps {r : Reader Link ι ν} {o : Outcome (Reader Link ι ν) Unit} (visit : Visits hear r o)
      (holds : P r.audience) : P o.state.audience ∧ o.state.revive = r.revive := by
    have hallows := (visit.allows (suits_quiet quiet) holds).1
    exact ⟨hallows.holds, hallows.leads.2⟩
  induction h generalizing stays with
  | @stopped r stopping =>
    cases stations
    exact ⟨rfl, fun lasting => by cases lasting.going.symm.trans stopping⟩
  | again going visit ok rest ih =>
    obtain _ | ⟨first, later⟩ := stations
    cases ok.symm.trans (first.stayed quiet holds going framed).fault
  | interrupted going visit failed interrupt =>
    obtain _ | ⟨first, _ | _⟩ := stations
    have hstayed := first.stayed quiet holds going framed
    refine ⟨hlast hstayed, fun lasting => ?_⟩
    cases (hstayed.ending lasting failed).1.symm.trans interrupt
  | released going visit failed link stopping =>
    obtain _ | ⟨first, _ | _⟩ := stations
    have hstayed := first.stayed quiet holds going framed
    refine ⟨hlast hstayed, fun lasting => ?_⟩
    cases (hstayed.stopping lasting.steady).symm.trans stopping
  | @kept r o fault going visit failed interrupt lasts =>
    obtain _ | ⟨first, _ | _⟩ := stations
    have hstayed := first.stayed quiet holds going framed
    refine ⟨hlast hstayed, fun lasting => ?_⟩
    have hrevive := (hkeeps visit holds).2.trans lasting.revive
    -- a fault of the link would have been answered, so it is the recording that has ended
    have hlink : fault.isLink = false := by
      cases hlink : fault.isLink with
      | false => rfl
      | true => cases (lasts hlink).2.symm.trans hrevive
    rw [(hstayed.ending lasting failed).2 hlink]
    rfl
  | @revived r o fault visits o' going visit failed link wanted revive rest ih =>
    obtain _ | ⟨first, later⟩ := stations
    rename_i stay stays
    have hstayed := first.stayed quiet holds going framed
    obtain ⟨hholds, hrevive⟩ := hkeeps visit holds
    obtain ⟨hpackets, hlength⟩ := ih later hholds (by rw [hstayed.endpoint]; exact framed)
    rw [hstayed.endpoint, hstayed.recording] at hpackets
    refine ⟨?_, fun lasting => ?_⟩
    · rw [packets_cons, hpackets, hstayed.packets, List.length_cons, Nat.add_comm, List.take_add,
        List.flatMap_append, List.drop_one]
    · have hrest := hlength (hstayed.lasting lasting hrevive)
      rw [hstayed.recording] at hrest
      cases hrecording : r.source.recording with
      | nil =>
        obtain rfl : .exhausted = fault := by
          have hfault := Except.error.inj (hstayed.fault.symm.trans failed)
          rwa [hrecording] at hfault
        cases link
      | cons d entries =>
        rw [hrecording] at hrest
        rw [List.length_cons, hrest]
        rfl

/-- A link that carries a stream and comes to be open, whatever was done with it before, goes on as
one that was never used and is opened on the same connection. So what a reader hands to its
listeners is what is in the connections that it opens, each by itself and in order, and it goes
through all of them if it revives its link and nothing but faults of links ends them. In a
connection are all packets among its bytes, if no acknowledgement fails. Listeners who log what they
are given log the packets handed out, each once by each of them. -/
theorem run_hands_out (holds : P r.audience) (framed : r.source.endpoint.Framed) :
    let e := r.source.endpoint
    (∀ (l l' : Link) (t : Trace), l.endpoint.Framed → Link.connect l = ⟨.ok (), l', t⟩ →
      ∃ fresh,
        Link.connect { endpoint := l.endpoint, recording := l.recording } = ⟨.ok (), fresh, t⟩ ∧
          ∀ steps, works steps l' = works steps fresh) ∧
    (∀ answers sends, (∀ fault, some fault ∉ sends) →
      Dial.packets e (.accepted answers sends) =
        (Receiver.decode (before e answers)).filterMap packet?) ∧
    ∃ visits stays, Runs hear r visits (run hear r) ∧ Stations hear r stays visits ∧
      (stays.filterMap id).flatMap Stay.packets =
        (r.source.recording.take stays.length).flatMap (Dial.packets e) ∧
      (r.stopping = false → r.revive → (∀ d ∈ r.source.recording, (d.fault e).isLink) →
        (∀ answers sends, .accepted answers sends ∈ r.source.recording → Steady answers) →
        (stays.filterMap id).flatMap Stay.packets =
          r.source.recording.flatMap (Dial.packets e)) ∧
      ∀ name, Logs P name hear →
        (run hear r).trace.filterMap Event.heard? =
          log name r.listeners ((stays.filterMap id).flatMap Stay.packets) := by
  intro e
  obtain ⟨visits, hruns⟩ := run_runs (suits_quiet quiet) holds
  obtain ⟨stays, hstations⟩ := hruns.stations
  obtain ⟨hpackets, hlength⟩ := hruns.hands_out quiet hstations holds framed
  refine ⟨fun l l' t hframed hopened => works_renewed hframed hopened,
    fun answers sends clear => Dial.packets_of_clear e answers clear, visits, stays, hruns,
    hstations, hpackets, fun going revive link steady => ?_, fun name logs => ?_⟩
  · rw [hpackets, hlength ⟨going, revive, link, steady⟩, List.take_of_length_le (Nat.le_succ _)]
  · exact (hruns.logged quiet logs unheard_link hstations holds).heard

end

theorem hear_of_left (depth : Nat) (name : String) (packet : Bytes) {r : Scripted Link}
    (none : r.audience.left = 0) :
    hear depth name packet r = ⟨.ok (), r, [.heard name packet]⟩ := by
  cases depth with
  | zero => rfl
  | succ depth =>
    rw [hear_succ, Scripts.next_of_left name none]
    rfl

/-- Scripted listeners who are out of actions do no more than log what they hear. -/
theorem quiet_hear (depth : Nat) :
    Quiet (fun scripts => scripts.left = 0) (hear depth : Hearing Link String (Scripts Step)) where
  result name packet r none := by rw [hear_of_left depth name packet none]
  source name packet r none := by rw [hear_of_left depth name packet none]
  revive name packet r none := by rw [hear_of_left depth name packet none]
  stays name packet r none := by rw [hear_of_left depth name packet none]; exact none

theorem logs_hear (depth : Nat) :
    Logs (fun scripts => scripts.left = 0) id
      (hear depth : Hearing Link String (Scripts Step)) where
  heard name packet r none := by rw [hear_of_left depth name packet none]; rfl
  listeners name packet r none := by rw [hear_of_left depth name packet none]

/-- A frame torn by a lost connection comes to nothing, and so does a packet that could not be
acknowledged. -/
theorem run_hands_out_torn :
    let torn := Frame.encode [0x45, 1, 2]
    let l : Link :=
      { endpoint := .serial "tty" 57600
        recording := [
          .accepted [.chunk (torn.take 4)],
          .refused (.outside .timeout "slow"),
          .accepted [.chunk (torn.drop 4 ++ Frame.encode [0x45, 3]), .fails (.outside .reset "")],
          .accepted [.chunk (Frame.encode [0x45, 4] ++ Frame.encode [0x44, 9, 5])]
            [some (.outside .connection "")]]
        receiver := { phase := .escaped, content := [7] }
        pending := torn.take 3 }
    let r : Scripted Link :=
      { source := l, revive := true, listeners := ["a", "b"], audience := [] }
    (∃ fresh, Link.connect { endpoint := l.endpoint, recording := l.recording } =
        ⟨.ok (), fresh, [.dialPort "tty" 57600]⟩ ∧
      ∀ steps, works steps (Link.connect l).state = works steps fresh) ∧
    ∃ visits stays, Runs (hear 0) r visits (run (hear 0) r) ∧ Stations (hear 0) r stays visits ∧
      (stays.filterMap id).flatMap Stay.packets = [[3], [4]] ∧
      (run (hear 0) r).trace.filterMap Event.heard? =
        [("a", [3]), ("b", [3]), ("a", [4]), ("b", [4])] := by
  intro torn l r
  obtain ⟨hrenewed, -, visits, stays, hruns, hstations, -, hall, hlogs⟩ :=
    run_hands_out (quiet_hear 0) (r := r) rfl trivial
  have hpackets : (stays.filterMap id).flatMap Stay.packets = [[3], [4]] := by
    refine (hall rfl rfl ?_ ?_).trans (by decide +kernel)
    · decide +kernel
    · simp only [r, l, List.mem_cons, List.not_mem_nil, Dial.accepted.injEq, reduceCtorEq, false_or,
        or_false]
      rintro _ _ (⟨rfl, -⟩ | ⟨rfl, -⟩ | ⟨rfl, -⟩) <;> simp [Steady]
  refine ⟨hrenewed l _ _ trivial rfl, visits, stays, hruns, hstations, hpackets, ?_⟩
  rw [hlogs id (logs_hear 0), hpackets]
  rfl

end Reader
end MoteLink
