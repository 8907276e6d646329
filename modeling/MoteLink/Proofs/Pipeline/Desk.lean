import MoteLink.Pipeline
import MoteLink.Proofs.Console.Display
import MoteLink.Proofs.Trace

/-! The listener of a pipeline at work: each packet of printed text reads the clock once and shows
its text, any other packet does nothing. Main statement: `each_hear`. -/

namespace MoteLink

namespace Clock

def next (c : Clock) : Clock :=
  match c.later with
  | [] => c
  | time :: rest => { now := time, later := rest }

def readings (c : Clock) : Nat → List ZonedTime
  | 0 => []
  | n + 1 => c.now :: c.next.readings n

/-- Every time that the clock can show has a stamp. -/
def Sound (c : Clock) : Prop :=
  ∀ time ∈ c.now :: c.later, 0 ≤ time.instant ∧ time.instant < ZonedTime.lastInstant

/-- What a console prints of some payloads, each with a reading of its own. -/
def marks (c : Clock) (payloads : List Bytes) : List Console.Mark :=
  ((c.readings payloads.length).zip payloads).flatMap fun (time, payload) =>
    Console.marks time payload

theorem marks_cons (c : Clock) (payload : Bytes) (rest : List Bytes) :
    c.marks (payload :: rest) = Console.marks c.now payload ++ c.next.marks rest := rfl

theorem read_eq (c : Clock) : read c = ⟨.ok c.now, c.next, [.clock]⟩ := by
  obtain ⟨now, later⟩ := c
  cases later <;> rfl

theorem Sound.next {c : Clock} (h : c.Sound) : c.next.Sound := by
  obtain ⟨now, later⟩ := c
  cases later with
  | nil => exact h
  | cons time rest => exact fun t ht => h t (List.mem_cons_of_mem _ ht)

theorem Sound.stamp {c : Clock} (h : c.Sound) : c.now.stamp = .ok c.now.label := by
  have hnow := h c.now (List.mem_cons_self ..)
  simp [ZonedTime.label, ZonedTime.stamp, ZonedTime.universal, hnow, Except.map, Except.toOption]

end Clock

/-- The payload of a packet that carries printed text. -/
def Packet.text? (data : Bytes) : Option Bytes :=
  (parse? data).bind fun p => if p.type = 100 then some p.payload else none

namespace Desk

/-- Waits for printed text, and can show it. -/
structure Serving (d : Desk) : Prop where
  hub : d.hub = ({} : Hub Unit).subscribe Console.template ()
  whole : d.console.broken = []
  sound : d.clock.Sound

theorem deliveries_eq (data : Bytes) :
    ((({} : Hub Unit).subscribe Console.template ()).deliveries data).map
        (fun d => (d.message.kind, d.message.data)) =
      (Packet.text? data).toList.map (Kind.printf, ·) := by
  have hhub : (({} : Hub Unit).subscribe Console.template ()).subscriptions =
      [(100, [⟨Console.template, ()⟩])] := rfl
  rw [Hub.deliveries, Packet.text?, hhub]
  cases Packet.parse? data with
  | none => rfl
  | some p =>
    have htype : (100 : Int) = (p.type.toNat : Int) ↔ p.type = 100 := by
      rw [← UInt8.toNat_inj]
      exact ⟨fun h => by simpa using (Int.ofNat.inj h).symm, fun h => by simp [h]⟩
    by_cases h : p.type = 100
    · simp [Hub.find, h, Message.carrying, Console.template]
    · simp [Hub.find, htype, h]

def told (d : Desk) (payload : Bytes) : Outcome Desk Unit :=
  let o := d.console.shown (Console.marks d.clock.now payload)
  { result := .ok ()
    state := { d with console := o.state, clock := d.clock.next }
    trace := .clock :: o.trace ++ [.flush] }

theorem receive_eq {d : Desk} {x : Delivery Unit} (hkind : x.message.kind = .printf)
    (hstamp : d.clock.now.stamp = .ok d.clock.now.label) (whole : d.console.broken = []) :
    receive x d = d.told x.message.data := by
  have hdisplay := Console.display_eq hkind hstamp whole
  simp [receive, Act.within, Act.run_bind, Clock.read_eq, hdisplay, told, Outcome.after]

theorem hear_of_text {d : Desk} (h : d.Serving) {packet payload : Bytes}
    (ht : Packet.text? packet = some payload) : hear packet d = d.told payload := by
  have hmap := deliveries_eq packet
  rw [ht, ← h.hub] at hmap
  obtain ⟨delivery, hone, hmessage⟩ := List.map_eq_singleton_iff.1 hmap
  obtain ⟨hkind, hdata⟩ := Prod.mk.inj hmessage
  have hreceive := receive_eq hkind h.sound.stamp h.whole
  rw [hdata] at hreceive
  simp [hear, Act.run_bind, hone, Act.each, hreceive, told, Outcome.after]

theorem hear_of_other {d : Desk} (h : d.Serving) {packet : Bytes}
    (ht : Packet.text? packet = none) : hear packet d = ⟨.ok (), d, []⟩ := by
  have hmap := deliveries_eq packet
  rw [ht, ← h.hub] at hmap
  have hnone : d.hub.deliveries packet = [] := List.map_eq_nil_iff.1 hmap
  simp [hear, Act.run_bind, hnone, Act.each]

theorem Serving.told {d : Desk} (h : d.Serving) (payload : Bytes) :
    (d.told payload).state.Serving :=
  ⟨h.hub, h.whole, h.sound.next⟩

/-- What some packets have made a desk show. -/
structure Heard (d : Desk) (texts : List Bytes) (o : Outcome Desk Unit) : Prop where
  fine : o.result = .ok ()
  serving : o.state.Serving
  printed : o.trace.printed =
    String.join (Console.writings d.console.awaiting (d.clock.marks texts))
  readings : o.trace.count .clock = texts.length
  flushes : o.trace.flushes = texts.length
  shown : ∀ e ∈ o.trace, e.isShown

theorem trace_told (d : Desk) (payload : Bytes) :
    (d.told payload).trace =
      .clock ::
        (Console.writings d.console.awaiting (Console.marks d.clock.now payload)).map .print ++
          [.flush] := rfl

theorem count_map_print {event : Event} (h : ∀ text, event ≠ .print text) (texts : List String) :
    (texts.map Event.print).count event = 0 := by
  refine List.count_eq_zero.2 fun hm => ?_
  obtain ⟨text, _, he⟩ := List.mem_map.1 hm
  exact h text he.symm

theorem Heard.told {d : Desk} {payload : Bytes} {texts : List Bytes} {o : Outcome Desk Unit}
    (h : Heard (d.told payload).state texts o) :
    Heard d (payload :: texts) (o.after (d.told payload).trace) := by
  refine ⟨h.fine, h.serving, ?_, ?_, ?_, ?_⟩
  · have hprinted : (d.told payload).trace.printed =
        String.join (Console.writings d.console.awaiting (Console.marks d.clock.now payload)) := by
      rw [trace_told, Trace.printed_append]
      exact (String.append_empty).trans (Trace.printed_map_print _)
    rw [Clock.marks_cons, Console.writings_append, String.join_append, ← hprinted]
    exact (Trace.printed_append ..).trans (congrArg _ h.printed)
  · simp [Outcome.after, h.readings, trace_told, count_map_print]
  · have hflushes := h.flushes
    unfold Trace.flushes at hflushes ⊢
    simp [Outcome.after, hflushes, trace_told, count_map_print]
  · intro e he
    rcases List.mem_append.1 he with hfirst | hrest
    · rw [trace_told] at hfirst
      rcases List.mem_append.1 hfirst with hcons | hflush
      · rcases List.mem_cons.1 hcons with rfl | hprint
        · rfl
        · obtain ⟨text, _, rfl⟩ := List.mem_map.1 hprint
          rfl
      · rw [List.mem_singleton.1 hflush]
        rfl
    · exact h.shown e hrest

theorem each_hear {d : Desk} (h : d.Serving) (packets : List Bytes) :
    Heard d (packets.filterMap Packet.text?) (Act.each hear packets d) := by
  induction packets generalizing d with
  | nil => exact ⟨rfl, h, rfl, rfl, rfl, fun _ he => absurd he (List.not_mem_nil)⟩
  | cons packet rest ih =>
    cases ht : Packet.text? packet with
    | none =>
      rw [List.filterMap_cons_none ht, Act.each, Act.bind_ok (hear_of_other h ht)]
      exact ih h
    | some payload =>
      rw [List.filterMap_cons_some ht, Act.each, Act.run_bind, hear_of_text h ht]
      exact (ih (h.told payload)).told

theorem hear_heard {d : Desk} (h : d.Serving) (packet : Bytes) :
    Heard d ([packet].filterMap Packet.text?) (hear packet d) := by
  have hone := each_hear h [packet]
  rwa [Act.each, show (hear packet >>= fun _ => Act.each hear []) = hear packet from
    Act.bind_pure _] at hone

end Desk
end MoteLink
