import MoteLink.Proofs.Pipeline.Reading

/-! One session of a pipeline that is not to be revived, from opening the link to the fault at its
end. Main statement: `play_recorded`. -/

namespace MoteLink

theorem Act.ensuring_error {x : Act σ α} {cleanup : Act σ Unit} {s s' s'' : σ} {fault : Fault}
    {t u : Trace} (h : x s = ⟨.error fault, s', t⟩) (hc : cleanup s' = ⟨.ok (), s'', u⟩) :
    Act.ensuring x cleanup s = ⟨.error fault, s'', t ++ u⟩ := by
  have hattempt : Act.attempt x s = ⟨.ok (.error fault), s', t⟩ := by simp [Act.attempt, h]
  rw [Act.ensuring, Act.bind_ok hattempt, Act.bind_ok hc]
  simp [Act.lift, Outcome.after]

theorem Endpoint.isLink_ending (e : Endpoint) :
    e.ending.isLink = true ∧ e.ending.isInterrupt = false := by
  cases e <;> exact ⟨rfl, rfl⟩

namespace Link
open Answer Signal

/-- The link that a connection with these answers was just opened for. -/
def opened (l : Link) (answers : List Answer) (sends : List (Option Fault)) (later : Recording) :
    Link :=
  { l with recording := later, connection := some answers, sends, receiver := {}, pending := [] }

theorem connect_accepted {l : Link} (framed : l.endpoint.Framed) {answers : List Answer}
    {sends : List (Option Fault)} {later : Recording}
    (h : l.recording = .accepted answers sends :: later) :
    connect l = ⟨.ok (), l.opened answers sends later, [dialling l.endpoint]⟩ := by
  rw [connect_eq framed, dial, h]
  rfl

end Link

namespace Pipeline
open Link Answer Signal

/-- A session hears all that the link gives, faults as the link ends, and closes it. -/
theorem session_eq {r : Pipeline} {answers : List Answer} {later : Recording}
    (framed : r.source.endpoint.Framed) (recorded : r.source.recording = .accepted answers :: later)
    (flowing : Flowing answers) (going : r.source.stopping = false) (single : r.listeners = [()])
    (serving : r.audience.Serving) :
    let opened := r.source.opened answers [] later
    ∃ (closed : Link) (t : Trace), Reader.session hear r =
        ⟨.error r.source.endpoint.ending,
          { r with
            source := closed
            audience := (Act.each Desk.hear opened.packets r.audience).state },
          dialling r.source.endpoint :: t ++ [.close]⟩ ∧
      closed.endpoint = r.source.endpoint ∧ closed.stopping = false ∧
      t.shown = (Act.each Desk.hear opened.packets r.audience).trace ∧
      t.notices = Trace.notices (opened.ahead.flatMap (echo r.source.endpoint)) := by
  intro opened
  have hconnect : Reader.onSource PacketFeed.connect r =
      ⟨.ok (), { r with source := opened }, [dialling r.source.endpoint]⟩ := by
    have hlink := connect_accepted framed recorded
    simp [Reader.onSource, Act.within, PacketFeed.connect, hlink, opened]
  have hflows : Flows { r with source := opened } :=
    ⟨⟨framed, rfl, steady_of_flowing flowing⟩, flowing, fun _ hm => absurd hm List.not_mem_nil,
      going, single, serving⟩
  obtain ⟨hended, ⟨l, hstate, hendpoint, hgoing, hconnected⟩, hshown, hnotices⟩ :=
    pump_pumped hflows (opened.weight + 1) (Nat.lt_succ_self _)
  generalize hpump : Reader.pump hear (opened.weight + 1) { r with source := opened } = o at *
  obtain ⟨result, state, t⟩ := o
  obtain rfl : result = .error r.source.endpoint.ending := hended
  obtain rfl := hstate
  have hclose : Reader.onSource PacketFeed.close
      { r with source := l, audience := (Act.each Desk.hear opened.packets r.audience).state } =
      ⟨.ok (),
        { r with
          source := { l with connection := none }
          audience := (Act.each Desk.hear opened.packets r.audience).state }, [.close]⟩ := by
    simp [Reader.onSource, Act.within, PacketFeed.close, Link.close, hconnected]
  refine ⟨{ l with connection := none }, t, ?_, hendpoint, hgoing, hshown, hnotices⟩
  rw [Reader.session, Act.bind_ok hconnect, Act.bind_ok (Act.run_look _ _)]
  rw [show Reader.remaining { r with source := opened } = opened.weight from rfl]
  rw [Act.ensuring_error hpump hclose]
  simp [Outcome.after]

theorem recover_ending {r : Pipeline} (going : r.source.stopping = false)
    (once : r.revive = false) :
    Reader.recover r.source.endpoint.ending r =
      ⟨.ok false, { r with kept := some r.source.endpoint.ending },
        [.notice (.died r.source.describe r.source.endpoint.ending)]⟩ := by
  obtain ⟨hlink, hinterrupt⟩ := r.source.endpoint.isLink_ending
  obtain ⟨source, revive, listeners, kept, worker, audience⟩ := r
  obtain rfl : revive = false := once
  have hgo : Reader.stopping (⟨source, false, listeners, kept, worker, audience⟩ : Pipeline) =
      false := going
  simp only [Reader.recover, hinterrupt, hlink, Bool.false_eq_true, if_false, if_true]
  rw [Act.bind_ok (Act.run_look _ _), hgo]
  rfl

/-- A pipeline whose link has one recorded connection shows what its desk shows of the packets, and
keeps the fault at the end. -/
theorem play_recorded {link : Link} (framed : link.endpoint.Framed) {answers : List Answer}
    (recorded : link.recording = [.accepted answers]) (flowing : Flowing answers)
    (going : link.stopping = false) {clock : Clock} (sound : clock.Sound) :
    let desk : Desk := { hub := ({} : Hub Unit).subscribe Console.template (), clock }
    let heard := Act.each Desk.hear (link.opened answers [] []).packets desk
    ∃ (r : Pipeline) (t : Trace), play (ofLink link false clock) =
        ⟨.ok (), r, .start :: dialling link.endpoint :: t ++
          [.close, .notice (.died link.describe link.endpoint.ending)]⟩ ∧
      r.kept = some link.endpoint.ending ∧ r.audience = heard.state ∧ t.shown = heard.trace ∧
      t.notices =
        Trace.notices ((link.opened answers [] []).ahead.flatMap (echo link.endpoint)) := by
  intro desk heard
  have hassemble : assemble (ofLink link false clock) =
      ⟨.ok (), { source := link, listeners := [()], audience := desk }, [.start]⟩ := rfl
  obtain ⟨closed, t, hsession, hendpoint, hgoing, hshown, hnotices⟩ :=
    session_eq (r := { source := link, listeners := [()], audience := desk }) framed recorded
      flowing going rfl ⟨rfl, rfl, sound⟩
  -- the fault at the end is one of the link, and the link is not to be revived
  have hrecover := recover_ending
    (r := { source := closed, listeners := [()], audience := heard.state }) hgoing rfl
  have hdescribe : closed.describe = link.describe := congrArg Endpoint.describe hendpoint
  rw [hendpoint, hdescribe] at hrecover
  have hattempt : Act.attempt (Reader.session hear)
      ({ source := link, listeners := [()], audience := desk } : Pipeline) =
      ⟨.ok (.error link.endpoint.ending),
        { source := closed, listeners := [()], audience := heard.state },
        dialling link.endpoint :: t ++ [.close]⟩ := by
    rw [Act.attempt, hsession]
  have hgo : Reader.stopping
      ({ source := link, listeners := [()], audience := desk } : Pipeline) = false := going
  refine ⟨{
      source := closed
      listeners := [()]
      kept := some link.endpoint.ending
      audience := heard.state }, t, ?_, rfl, rfl, hshown, hnotices⟩
  rw [play, Act.bind_ok hassemble, Reader.run, Act.bind_ok (Act.run_look _ _), Reader.rounds,
    Act.bind_ok (Act.run_look _ _), hgo]
  simp only [Bool.false_eq_true, if_false]
  rw [Act.bind_ok hattempt]
  dsimp only
  rw [Act.bind_ok hrecover]
  simp [Outcome.after]

end Pipeline
end MoteLink
