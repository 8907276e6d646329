import MoteLink.Command
import MoteLink.Proofs.Frame.RoundTrip
import MoteLink.Proofs.Pipeline.Session

/-! The command from the bytes of a link to the text on the console. Main statement:
`printed_run`. -/

namespace MoteLink

namespace Registry

theorem ready_only : Act.Only (fun e => ¬ e.isShown) ready := by
  have hperform : ∀ step, Act.Only (fun e => ¬ e.isShown) (perform step) := by
    intro step
    cases step with
    | insert name baud => exact .update _
    | find name => exact .bind (.look _) fun _ => .emit (by simp [Event.isShown])
    | fails fault => exact .fail fault
  refine .bind (.look _) fun unused => ?_
  cases unused with
  | false => exact .pure ()
  | true =>
    refine .bind (.update _) fun _ => .bind (.emit (by decide)) fun _ => .bind (.look _) ?_
    refine fun steps => .bind (.attempt (.each hperform steps)) fun result => ?_
    cases result with
    | ok _ => exact .pure ()
    | error fault =>
      dsimp only
      split
      · exact .fail fault
      · exact .emit (by decide)

theorem find_only (name : String) : Act.Only (fun e => ¬ e.isShown) (find name) :=
  .bind ready_only fun _ => .look _

end Registry

theorem Endpoint.parse_only (text : String) : Act.Only (fun e => ¬ e.isShown) (parse text) := by
  have hbaud : ∀ speed, Act.Only (fun e => ¬ e.isShown) (baud speed) := by
    intro speed
    unfold baud
    split
    · exact .lift _
    · refine .bind (Registry.find_only speed) fun found => ?_
      split
      · exact .fail _
      · exact .pure found
  have hserial : ∀ arguments, Act.Only (fun e => ¬ e.isShown) (serialOf arguments) := by
    intro arguments
    unfold serialOf
    split
    · exact .pure _
    · exact .bind (hbaud _) fun _ => .pure _
  unfold parse
  split
  · exact .fail _
  · exact .fail _
  · split_ifs
    · exact hserial _
    · exact .lift _
    · exact .lift _
    · exact .fail _

/-- A packet on its way, with a number if it wants an acknowledgement. -/
structure Sending where
  sequence : Option UInt8 := none
  packet : Bytes
  deriving DecidableEq, Repr

namespace Sending

def body (s : Sending) : Bytes :=
  match s.sequence with
  | none => 0x45 :: s.packet
  | some sequence => 0x44 :: sequence :: s.packet

theorem packet?_body (s : Sending) : packet? s.body = some s.packet := by
  obtain ⟨_ | sequence, packet⟩ := s <;> rfl

theorem foreign?_body (s : Sending) : foreign? s.body = none := by
  rw [foreign?, packet?_body]
  rfl

theorem body_length_pos (s : Sending) : 1 ≤ s.body.length := by
  obtain ⟨_ | sequence, packet⟩ := s <;> exact Nat.succ_le_succ (Nat.zero_le _)

end Sending

namespace Link
open Answer Signal

theorem flatMap_echo_loud (e : Endpoint) (signals : List Signal) :
    (loud signals).flatMap (echo e) = signals.flatMap (echo e) := by
  induction signals with
  | nil => rfl
  | cons s rest ih =>
    rw [List.flatMap_cons, ← ih]
    cases s <;> rfl

section
variable {l : Link} {later : Recording} {chunks : List Bytes} {noise : Bytes}
  {sendings : List Sending} (quiet : Frame.delimiter ∉ noise)
  (fits : ∀ s ∈ sendings, s.body.length ≤ 262)
  (cut : chunks.flatten = noise ++ sendings.flatMap fun s => Frame.encode s.body)
include quiet fits cut

theorem loud_ahead_opened :
    loud (l.opened (chunks.map .chunk) [] later).ahead = (sendings.map Sending.body).map .body := by
  have hcoming : (l.opened (chunks.map .chunk) [] later).coming =
      noise ++ (sendings.map Sending.body).flatMap Frame.encode := by
    rw [List.flatMap_map, ← cut]
    exact bytesOf_chunks chunks
  have hfits : ∀ body ∈ sendings.map Sending.body, Frame.Fits body := by
    intro body hbody
    obtain ⟨s, hs, rfl⟩ := List.mem_map.1 hbody
    exact ⟨s.body_length_pos, fits s hs⟩
  rw [ahead, hcoming]
  exact Frame.loud_noise_frames quiet hfits

theorem packets_opened :
    (l.opened (chunks.map .chunk) [] later).packets = sendings.map Sending.packet := by
  have hbodies : ∀ frames : List Bytes, bodies (frames.map .body) = frames := by
    intro frames
    rw [bodies, List.filterMap_map]
    exact List.filterMap_some
  have hpacket : packet? ∘ Sending.body = some ∘ Sending.packet := funext Sending.packet?_body
  rw [packets, ← bodies_loud, loud_ahead_opened quiet fits cut, hbodies, List.filterMap_map,
    hpacket, List.filterMap_eq_map]

theorem notices_opened (e : Endpoint) :
    Trace.notices ((l.opened (chunks.map .chunk) [] later).ahead.flatMap (echo e)) = [] := by
  have hone : ∀ s : Sending, Trace.notices (echo e (.body s.body)) = [] := by
    intro s
    rw [echo, s.foreign?_body]
    cases sequence? s.body <;> cases e <;> rfl
  have hall : ∀ some : List Sending,
      Trace.notices (((some.map Sending.body).map Signal.body).flatMap (echo e)) = [] := by
    intro some
    induction some with
    | nil => rfl
    | cons s rest ih => simpa [Trace.notices_append, hone] using ih
  rw [← flatMap_echo_loud, loud_ahead_opened quiet fits cut]
  exact hall sendings

end
end Link

namespace Command

/-- All that happens when a source was found and its one connection was read to the end. -/
def course (search : Trace) (endpoint : Endpoint) (session : Trace) : Trace :=
  search ++ ([.print (endpoint.describe ++ "\n"), .start, Link.dialling endpoint] ++ session ++
    [.close, .notice (.died endpoint.describe endpoint.ending)])

section
variable (search session : Trace) (endpoint : Endpoint)

theorem printed_course :
    (course search endpoint session).printed =
      search.printed ++ (endpoint.describe ++ "\n" ++ session.printed) := by
  have hopening : Trace.printed [.print (endpoint.describe ++ "\n"), .start,
      Link.dialling endpoint] = endpoint.describe ++ "\n" := by
    cases endpoint <;> simp [Trace.printed, Link.dialling]
  rw [course, Trace.printed_append, Trace.printed_append, Trace.printed_append, hopening]
  exact congrArg (_ ++ ·) String.append_empty

theorem count_clock_course :
    (course search endpoint session).count .clock = search.count .clock + session.count .clock := by
  have hopening : List.count Event.clock [.print (endpoint.describe ++ "\n"), .start,
      Link.dialling endpoint] = 0 := by
    cases endpoint <;> simp [Link.dialling]
  rw [course, List.count_append, List.count_append, List.count_append, hopening, Nat.zero_add]
  rfl

theorem notices_course :
    (course search endpoint session).notices =
      search.notices ++ (session.notices ++ [.died endpoint.describe endpoint.ending]) := by
  have hopening : Trace.notices [.print (endpoint.describe ++ "\n"), .start,
      Link.dialling endpoint] = [] := by
    cases endpoint <;> rfl
  rw [course, Trace.notices_append, Trace.notices_append, Trace.notices_append, hopening]
  rfl

end

/-- The command with a source, up to the fault at the end of its one connection. -/
theorem run_recorded {source : String} {registry : Registry} {endpoint : Endpoint} {world : World}
    {answers : List Answer} (parsed : (Endpoint.parse source registry).result = .ok endpoint)
    (framed : endpoint.Framed) (recorded : world.recording = [.accepted answers])
    (flowing : Answer.Flowing answers) (sound : world.clock.Sound) :
    let link : Link := { endpoint, recording := world.recording }
    let opened := link.opened answers [] []
    let desk : Desk :=
      { hub := ({} : Hub Unit).subscribe Console.template (), clock := world.clock }
    ∃ session : Trace, run world ["-comm", source] registry =
        ⟨.error endpoint.ending, (Endpoint.parse source registry).state,
          course (Endpoint.parse source registry).trace endpoint session⟩ ∧
      session.shown = (Act.each Desk.hear opened.packets desk).trace ∧
      session.notices = Trace.notices (opened.ahead.flatMap (Link.echo endpoint)) := by
  intro link opened desk
  obtain ⟨r, session, hplay, hkept, -, hshown, hnotices⟩ :=
    Pipeline.play_recorded (show link.endpoint.Framed from framed) recorded flowing rfl sound
  refine ⟨session, ?_, hshown, hnotices⟩
  have hgiven : given ["-comm", source] = some (some source) := by simp [given]
  simp only [run, hgiven]
  refine (Act.bind_of_result parsed _).trans ?_
  rw [Act.bind_ok (Act.run_emit _ _), Act.aside, Act.bind_ok hplay,
    Act.bind_ok (Act.run_look _ _), hkept]
  simp [Outcome.after, course, link, Link.describe]

/-- However the bytes of a link are cut into chunks, the command prints the description of the
source and then the printed text in the packets that were sent, with one stamp before each line. The
clock is read once for each packet of printed text. -/
theorem printed_run {source : String} {registry : Registry} {endpoint : Endpoint} {world : World}
    {noise : Bytes} {sendings : List Sending} {chunks : List Bytes}
    (parsed : (Endpoint.parse source registry).result = .ok endpoint) (framed : endpoint.Framed)
    (quiet : Frame.delimiter ∉ noise) (fits : ∀ s ∈ sendings, s.body.length ≤ 262)
    (cut : chunks.flatten = noise ++ sendings.flatMap fun s => Frame.encode s.body)
    (pieces : [] ∉ chunks) (recorded : world.recording = [.accepted (chunks.map .chunk)])
    (sound : world.clock.Sound) :
    let o := run world ["-comm", source] registry
    let texts := sendings.filterMap fun s => Packet.text? s.packet
    o.trace.printed =
        endpoint.describe ++ "\n" ++ Console.transcript (world.clock.marks texts) ∧
      o.trace.count .clock = texts.length ∧
      o.trace.notices = (Endpoint.parse source registry).trace.notices ++
        [.died endpoint.describe endpoint.ending] ∧
      o.result = .error endpoint.ending := by
  intro o texts
  obtain ⟨session, hrun, hshown, hnotices⟩ :=
    run_recorded parsed framed recorded (Answer.flowing_chunks pieces) sound
  rw [Link.packets_opened quiet fits cut] at hshown
  rw [Link.notices_opened quiet fits cut] at hnotices
  obtain ⟨-, -, hprinted, hreadings, -, -⟩ := Desk.each_hear
    (d := { hub := ({} : Hub Unit).subscribe Console.template (), clock := world.clock })
    ⟨rfl, rfl, sound⟩ (sendings.map Sending.packet)
  rw [← hshown, Trace.printed_shown, List.filterMap_map, Console.join_writings] at hprinted
  rw [← hshown, Trace.count_clock_shown, List.filterMap_map] at hreadings
  -- what looking the source up leaves in the trace is neither text nor a reading
  have hquiet := Trace.shown_eq_nil (Endpoint.parse_only source registry)
  have hsilent : (Endpoint.parse source registry).trace.printed = "" := by
    rw [← Trace.printed_shown, hquiet]
    rfl
  have huncounted : (Endpoint.parse source registry).trace.count .clock = 0 := by
    rw [← Trace.count_clock_shown, hquiet]
    rfl
  rw [show o = _ from hrun]
  refine ⟨?_, ?_, ?_, rfl⟩
  · rw [printed_course, hsilent, hprinted]
    exact String.empty_append
  · rw [count_clock_course, huncounted, hreadings, Nat.zero_add]
    rfl
  · rw [notices_course, hnotices]
    rfl

theorem printed_run_greeting :
    let sendings : List Sending :=
      [{ sequence := some 7, packet := [0, 0, 1, 0, 2, 3, 34, 100, 72, 105, 10] },
        { packet := [0, 0, 1, 0, 2, 1, 34, 6, 88] }]
    let stream := [0x55] ++ sendings.flatMap fun s => Frame.encode s.body
    let chunks := [stream.take 9, stream.drop 9]
    let clock : Clock := { now := { shown := ⟨⟨1970, 1, 2⟩, 3, 4, 5, 6000⟩, offset := 0 } }
    (run { recording := [.accepted (chunks.map .chunk)], clock } ["-comm", "network@host:1"]
      .usual).trace.printed = "network@host:1\n1970/01/02 03:04:05.006:Hi\n" := by
  intro sendings stream chunks clock
  have hparsed : (Endpoint.parse "network@host:1" .usual).result = .ok (.network "host" 1) := by
    decide +kernel
  have hprinted := printed_run hparsed trivial
    (show Frame.delimiter ∉ [0x55] by decide) (show ∀ s ∈ sendings, s.body.length ≤ 262 by decide)
    (show chunks.flatten = [0x55] ++ sendings.flatMap fun s => Frame.encode s.body by
      decide +kernel)
    (show [] ∉ chunks by decide +kernel)
    (show World.recording { recording := [.accepted (chunks.map .chunk)], clock } =
      [.accepted (chunks.map .chunk)] from rfl)
    (show clock.Sound by simp [Clock.Sound, clock]; decide)
  exact hprinted.1.trans (by decide +kernel)

end Command
end MoteLink
