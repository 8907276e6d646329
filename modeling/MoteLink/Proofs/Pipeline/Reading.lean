import MoteLink.Proofs.Link.Carrying
import MoteLink.Proofs.Link.Packets
import MoteLink.Proofs.Pipeline.Desk

/-! A pipeline reading its link to the end: the desk hears every packet that the link gives, in
order, and what is seen of it comes from there alone. Main statement: `pump_pumped`. -/

namespace MoteLink

namespace Link
open Answer Signal

theorem steady_of_flowing {answers : List Answer} (h : Flowing answers) : Steady answers := by
  intro fault hm
  obtain ⟨data, _, he⟩ := h _ hm
  simp at he

/-- The packets that a link will still give. -/
def packets (l : Link) : List Bytes := (bodies l.ahead).filterMap packet?

theorem shown_nextPacket (l : Link) : (nextPacket l).trace.shown = [] :=
  Trace.shown_of_traffic (carries_trading.nextPacket l)

end Link

namespace Pipeline
open Link Answer Signal

/-- The bytes of the link flow, no write fails, and its one listener is a desk that can show printed
text. -/
structure Flows (r : Pipeline) : Prop where
  opened : r.source.Open
  flowing : Flowing r.source.script
  clear : ∀ fault, some fault ∉ r.source.sends
  going : r.source.stopping = false
  single : r.listeners = [()]
  serving : r.audience.Serving

theorem deliver_eq {r : Pipeline} (h : r.Flows) (packet : Bytes) :
    Reader.deliver hear packet r =
      ⟨.ok (), { r with audience := (Desk.hear packet r.audience).state },
        (Desk.hear packet r.audience).trace⟩ := by
  have hfine := (Desk.hear_heard h.serving packet).fine
  have hrun : hear () packet r =
      ⟨.ok (), { r with audience := (Desk.hear packet r.audience).state },
        (Desk.hear packet r.audience).trace⟩ := by
    simp [hear, Act.within, hfine]
  have hlook : Reader.deliver hear packet r = Act.each (hear · packet) [()] r := by
    rw [← h.single]
    rfl
  rw [hlook, Act.each, show (fun _ => Act.each (hear · packet) []) = fun _ => pure () from rfl,
    show (hear () packet >>= fun _ => pure ()) = hear () packet from Act.bind_pure _, hrun]

theorem onSource_read {r : Pipeline} (framed : r.source.endpoint.Framed) :
    Reader.onSource PacketFeed.read r =
      ⟨(nextPacket r.source).result, { r with source := (nextPacket r.source).state },
        (nextPacket r.source).trace⟩ := by
  rw [← read_eq framed]
  rfl

theorem pump_succ {r : Pipeline} (h : r.Flows) (n : Nat) :
    Reader.pump hear (n + 1) r =
      (Reader.onSource PacketFeed.read >>= fun packet =>
        Reader.deliver hear packet >>= fun _ => Reader.pump hear n) r := by
  have hgo : Reader.stopping r = false := h.going
  rw [Reader.pump, Act.bind_ok (Act.run_look _ _), hgo]
  rfl

/-- What comes of reading to the end. -/
structure Pumped (r : Pipeline) (o : Outcome Pipeline Unit) : Prop where
  ended : o.result = .error r.source.endpoint.ending
  state : ∃ l : Link, o.state =
      { r with source := l, audience := (Act.each Desk.hear r.source.packets r.audience).state } ∧
    l.endpoint = r.source.endpoint ∧ l.stopping = false ∧ l.connection = some []
  shown : o.trace.shown = (Act.each Desk.hear r.source.packets r.audience).trace
  notices : o.trace.notices = Trace.notices (r.source.ahead.flatMap (echo r.source.endpoint))

/-- The pipeline behind a packet read and heard. -/
def heard (r : Pipeline) (packet : Bytes) : Pipeline :=
  { r with
    source := (nextPacket r.source).state
    audience := (Desk.hear packet r.audience).state }

theorem Flows.heard {r : Pipeline} (h : r.Flows) (packet : Bytes) : (r.heard packet).Flows := by
  obtain ⟨signals, hyields⟩ := nextPacket_yields h.opened
  have hadv := hyields.advanced
  refine ⟨hadv.stays, hadv.flowing h.flowing, fun fault hm => ?_, hadv.stopping.trans h.going,
    h.single, (Desk.hear_heard h.serving packet).serving⟩
  rw [Pipeline.heard, hyields.sends] at hm
  exact h.clear fault (List.mem_of_mem_drop hm)

theorem pumped_of_fault {r : Pipeline} (h : r.Flows) {fault : Fault}
    (hr : (nextPacket r.source).result = .error fault) :
    Pumped r ⟨.error fault, { r with source := (nextPacket r.source).state },
      (nextPacket r.source).trace⟩ := by
  obtain ⟨signals, hyields⟩ := nextPacket_yields h.opened
  have hadv := hyields.advanced
  obtain ⟨hvalue, hstalled⟩ := hyields.clear h.clear
  obtain ⟨hscript, hfault⟩ := (hstalled fault hr).ended h.flowing
  -- all bytes were used before the fault, so no signal is left to come
  have hahead := hadv.ahead
  rw [ahead_of_ended (hstalled _ hr).empty hscript, List.append_nil] at hahead
  have hnone : r.source.packets = [] := by
    rw [packets, hahead, ← hvalue, hr]
    rfl
  refine ⟨congrArg _ hfault, ⟨_, ?_, hadv.endpoint, hadv.stopping.trans h.going, ?_⟩, ?_, ?_⟩
  · rw [hnone]
    rfl
  · rw [← hscript]
    exact hadv.stays.connected
  · rw [hnone]
    exact shown_nextPacket _
  · rw [hahead, ← hyields.effects]
    exact (Trace.notices_effects _).symm

theorem pumped_of_packet {r : Pipeline} (h : r.Flows) {packet : Bytes}
    (hr : (nextPacket r.source).result = .ok packet) {o : Outcome Pipeline Unit}
    (ho : Pumped (r.heard packet) o) :
    Pumped r ((o.after (Desk.hear packet r.audience).trace).after (nextPacket r.source).trace) := by
  obtain ⟨signals, hyields⟩ := nextPacket_yields h.opened
  have hadv := hyields.advanced
  have hvalue := (hyields.clear h.clear).1
  obtain ⟨hended, ⟨l, hstate, hendpoint, hgoing⟩, hshown', hnotices'⟩ := ho
  have hahead := hadv.ahead
  have hpackets : r.source.packets = packet :: (r.heard packet).source.packets := by
    rw [packets, hahead, bodies_append, List.filterMap_append, ← hvalue, hr]
    rfl
  have hheard := Desk.hear_heard h.serving packet
  have heach : Act.each Desk.hear r.source.packets r.audience =
      (Act.each Desk.hear (r.heard packet).source.packets (r.heard packet).audience).after
        (Desk.hear packet r.audience).trace := by
    rw [hpackets, Act.each, Act.bind_of_result hheard.fine]
    rfl
  refine ⟨?_, ⟨l, ?_, hendpoint.trans hadv.endpoint, hgoing⟩, ?_, ?_⟩
  · rw [← hadv.endpoint]
    exact hended
  · rw [heach]
    exact hstate
  · rw [heach, Outcome.after, Outcome.after, Trace.shown_append, Trace.shown_append,
      shown_nextPacket, hshown', Trace.shown_of_all hheard.shown]
    rfl
  · have hendpoint' : (r.heard packet).source.endpoint = r.source.endpoint := hadv.endpoint
    rw [Outcome.after, Outcome.after, Trace.notices_append, Trace.notices_append,
      ← Trace.notices_effects (nextPacket r.source).trace, hyields.effects,
      Trace.notices_of_shown hheard.shown, hnotices', hendpoint', hahead, List.flatMap_append,
      Trace.notices_append]
    rfl

theorem pump_pumped {r : Pipeline} (h : r.Flows) (n : Nat) (hn : r.source.weight < n) :
    Pumped r (Reader.pump hear n r) := by
  induction n generalizing r with
  | zero => exact absurd hn (Nat.not_lt_zero _)
  | succ n ih =>
    have hread := onSource_read h.opened.framed
    rw [pump_succ h]
    cases hr : (nextPacket r.source).result with
    | error fault =>
      rw [hr] at hread
      rw [Act.bind_error hread]
      exact pumped_of_fault h hr
    | ok packet =>
      obtain ⟨signals, hyields⟩ := nextPacket_yields h.opened
      have hlighter := hyields.lighter hr
      have hflows : Flows { r with source := (nextPacket r.source).state } :=
        ⟨(h.heard packet).opened, (h.heard packet).flowing, (h.heard packet).clear,
          (h.heard packet).going, h.single, h.serving⟩
      rw [hr] at hread
      rw [Act.bind_ok hread, Act.bind_ok (deliver_eq hflows packet)]
      exact pumped_of_packet h hr
        (ih (h.heard packet) (Nat.lt_of_lt_of_le hlighter (Nat.le_of_lt_succ hn)))

end Pipeline
end MoteLink
