import MoteLink.Proofs.Link.Chunking

/-! What a link that carries a stream writes while packets are read from it: the acknowledgement of
each numbered frame, once, as soon as the frame has come. Main statement: `calls_acknowledge`. -/

namespace MoteLink

open Signal

/-- What is written for some frames. -/
def acknowledgements (frames : List Bytes) : List Bytes :=
  (frames.filterMap sequence?).map fun sequence => Frame.ack sequence.toNat

theorem acknowledgements_append (a b : List Bytes) :
    acknowledgements (a ++ b) = acknowledgements a ++ acknowledgements b := by
  rw [acknowledgements, List.filterMap_append, List.map_append, acknowledgements, acknowledgements]

theorem packet_of_sequence {body : Bytes} {sequence : UInt8} (h : sequence? body = some sequence) :
    ∃ packet, packet? body = some packet := by
  rcases body with _ | ⟨protocol, _ | ⟨number, data⟩⟩
  · exact nomatch h
  · exact nomatch h
  · obtain rfl : protocol = 0x44 := by
      by_contra hother
      simp [sequence?, hother] at h
    exact ⟨data, rfl⟩

/-- Something comes of every numbered frame. -/
theorem sequences_le_handed (sends : List (Option Fault)) (frames : List Bytes) :
    (frames.filterMap sequence?).length ≤ (handed sends frames).length := by
  induction frames generalizing sends with
  | nil => exact Nat.le_refl _
  | cons body rest ih =>
    rw [handed]
    cases hs : sequence? body with
    | none =>
      rw [List.filterMap_cons_none hs, List.length_append]
      exact Nat.le_trans (ih sends) (Nat.le_add_left ..)
    | some sequence =>
      obtain ⟨packet, hpacket⟩ := packet_of_sequence hs
      rw [List.filterMap_cons_some hs, hpacket, List.length_append, Nat.add_comm]
      exact Nat.succ_le_succ (ih sends.tail)

/-- Where one thing comes of some frames and one of them is numbered, it comes of that one. -/
theorem handed_refused {sends : List (Option Fault)} {frames : List Bytes} {fault : Fault}
    {result : Except Fault Bytes} (refused : sends.headD none = some fault)
    (single : handed sends frames = [result]) (asked : frames.filterMap sequence? ≠ []) :
    result = .error fault := by
  induction frames with
  | nil => exact absurd rfl asked
  | cons body rest ih =>
    rw [handed] at single
    cases hs : sequence? body with
    | none =>
      rw [List.filterMap_cons_none hs] at asked
      rw [hs] at single
      cases hp : packet? body with
      | none =>
        rw [hp] at single
        exact ih single asked
      | some packet =>
        rw [hp] at single
        have hnothing : handed sends rest = [] := (List.cons.inj single).2
        have hfewer := sequences_le_handed sends rest
        rw [hnothing] at hfewer
        exact absurd (List.length_eq_zero_iff.1 (Nat.le_zero.1 hfewer)) asked
    | some sequence =>
      obtain ⟨packet, hpacket⟩ := packet_of_sequence hs
      rw [hs, hpacket, refused] at single
      exact (List.cons.inj single).1.symm

theorem ack_toNat (sequence : UInt8) :
    Frame.ack sequence.toNat = Frame.encode [Frame.acknowledgement, sequence] := by
  have hsame : ((sequence.toNat : Int) % 256).toNat = sequence.toNat := by
    have := sequence.toNat_lt
    omega
  rw [Frame.ack, hsame, UInt8.ofNat_toNat]

/-- The other side, which reads the acknowledgements as frames, gets each number back. -/
theorem decode_acknowledgements (frames : List Bytes) :
    Receiver.decode (acknowledgements frames).flatten =
      (frames.filterMap sequence?).map fun sequence => [Frame.acknowledgement, sequence] := by
  have hframes : (acknowledgements frames).flatten =
      ((frames.filterMap sequence?).map fun sequence =>
        [Frame.acknowledgement, sequence]).flatMap Frame.encode := by
    rw [List.flatMap_def, List.map_map]
    exact congrArg List.flatten (List.map_congr_left fun sequence _ => ack_toNat sequence)
  have hfits : ∀ body ∈ (frames.filterMap sequence?).map fun sequence =>
      [Frame.acknowledgement, sequence], Frame.Fits body := by
    intro body hbody
    obtain ⟨sequence, -, rfl⟩ := List.mem_map.1 hbody
    simp [Frame.Fits]
  have hquiet : Frame.delimiter ∉ ([] : Bytes) := List.not_mem_nil
  have hloud := Frame.loud_noise_frames hquiet hfits
  rw [List.nil_append] at hloud
  rw [hframes, Receiver.decode, ← bodies_loud, hloud, bodies, List.filterMap_map]
  exact List.filterMap_some

namespace Link
open Answer

/-- The bytes that so many reads bring. -/
def brought (e : Endpoint) : Nat → List Answer → Bytes
  | 0, _ => []
  | n + 1, answers => (serve e answers).1.toOption.getD [] ++ brought e n (serve e answers).2

/-- What so many reads leave on the line. -/
def beyond (e : Endpoint) : Nat → List Answer → List Answer
  | 0, answers => answers
  | n + 1, answers => beyond e n (serve e answers).2

theorem brought_add (e : Endpoint) (m n : Nat) (answers : List Answer) :
    brought e (m + n) answers = brought e m answers ++ brought e n (beyond e m answers) := by
  induction m generalizing answers with
  | zero => rw [Nat.zero_add]; rfl
  | succ m ih => rw [Nat.succ_add, brought, ih, brought, List.append_assoc]; rfl

theorem beyond_add (e : Endpoint) (m n : Nat) (answers : List Answer) :
    beyond e (m + n) answers = beyond e n (beyond e m answers) := by
  induction m generalizing answers with
  | zero => rw [Nat.zero_add]; rfl
  | succ m ih => rw [Nat.succ_add]; exact ih _

/-- All that has come after so many reads, what waits in the link included. -/
def received (l : Link) (reads : Nat) : Bytes := l.pending ++ brought l.endpoint reads l.script

/-- What a link does from one state to another, with the frames found on the way. Nothing more is
read as long as a frame that has come waits to be acknowledged. -/
structure Paced (l : Link) (t : Trace) (found : List Bytes) (l' : Link) : Prop where
  endpoint : l'.endpoint = l.endpoint
  stays : l'.Open
  script : l'.script = beyond l.endpoint t.reads l.script
  taken : ∃ used signals, l.received t.reads = used ++ l'.pending ∧
    l.receiver.run used = (l'.receiver, signals) ∧ bodies signals = found
  prompt : ∀ (u v : Trace) (read : Event), t = u ++ read :: v → read.isRead →
    u.written = acknowledgements (bodies (l.receiver.run (l.received u.reads)).2)

theorem Paced.received {l l' : Link} {t : Trace} {found : List Bytes} (h : Paced l t found l')
    (reads : Nat) :
    ∃ used signals, l.received (t.reads + reads) = used ++ l'.received reads ∧
      l.receiver.run used = (l'.receiver, signals) ∧ bodies signals = found := by
  obtain ⟨used, signals, hcame, hrun, hfound⟩ := h.taken
  refine ⟨used, signals, ?_, hrun, hfound⟩
  rw [Link.received, brought_add, ← List.append_assoc, ← Link.received, hcame, Link.received,
    h.endpoint, h.script, List.append_assoc]

theorem Paced.trans {l l' l'' : Link} {t u : Trace} {found more : List Bytes}
    (h : Paced l t found l') (settled : t.written = acknowledgements found)
    (h' : Paced l' u more l'') : Paced l (t ++ u) (found ++ more) l'' := by
  refine ⟨h'.endpoint.trans h.endpoint, h'.stays, ?_, ?_, ?_⟩
  · rw [h'.script, h.endpoint, h.script, Trace.reads_append, beyond_add]
  · obtain ⟨used, signals, hcame, hrun, hfound⟩ := h.received u.reads
    obtain ⟨used', signals', hcame', hrun', hfound'⟩ := h'.taken
    refine ⟨used ++ used', signals ++ signals', ?_, ?_, ?_⟩
    · rw [Trace.reads_append, hcame, hcame', List.append_assoc]
    · rw [Receiver.run_append, hrun, hrun']
    · rw [bodies_append, hfound, hfound']
  · intro v w read hsplit hread
    rcases Trace.split_append hsplit with ⟨w', hfirst⟩ | ⟨v', rfl, hrest⟩
    · exact h.prompt v w' read hfirst hread
    -- the first part is settled, so what it has used counts with what it has written
    · obtain ⟨used, signals, hcame, hrun, hfound⟩ := h.received v'.reads
      rw [Trace.written_append, settled, h'.prompt v' w read hrest hread, Trace.reads_append, hcame,
        Receiver.run_append, hrun, bodies_append, hfound, acknowledgements_append]

/-- What brings about notices only. -/
theorem Paced.of_notices {l l' : Link} {t : Trace} {found : List Bytes}
    (notices : ∀ e ∈ t, ∃ n, e = .notice n) (endpoint : l'.endpoint = l.endpoint)
    (stays : l'.Open) (script : l'.script = l.script)
    (taken : ∃ used signals, l.pending = used ++ l'.pending ∧
      l.receiver.run used = (l'.receiver, signals) ∧ bodies signals = found) :
    t.written = [] ∧ Paced l t found l' := by
  have hreads : t.reads = 0 := by
    refine List.countP_eq_zero.2 fun e he => ?_
    obtain ⟨n, rfl⟩ := notices e he
    nofun
  refine ⟨List.filterMap_eq_nil_iff.2 fun e he => ?_, endpoint, stays, ?_, ?_, ?_⟩
  · obtain ⟨n, rfl⟩ := notices e he
    rfl
  · rw [hreads]
    exact script
  · rw [hreads, Link.received, brought, List.append_nil]
    exact taken
  · rintro u v read rfl hread
    obtain ⟨n, rfl⟩ := notices read (by simp)
    cases hread

theorem paced_advance {l : Link} (h : l.Open) :
    l.advanceTrace.written = [] ∧
      Paced l l.advanceTrace (l.receiver.scan l.pending).body.toList l.advance ∧
      ((l.receiver.scan l.pending).body = none → l.advance.pending = []) := by
  obtain ⟨used, quiet, hdata, hrun, hbodies, -, hrest⟩ := scan_run l.receiver l.pending
  have hnotices : ∀ e ∈ l.advanceTrace, ∃ n, e = .notice n := by
    intro e he
    obtain ⟨cause, -, rfl⟩ := List.mem_map.1 he
    exact ⟨_, rfl⟩
  have hstays : l.advance.Open := ⟨h.framed, h.connected, h.steady⟩
  obtain ⟨hwritten, hpaced⟩ : l.advanceTrace.written = [] ∧ Paced l l.advanceTrace _ l.advance :=
    Paced.of_notices hnotices rfl hstays rfl ⟨used, _, hdata, hrun, rfl⟩
  refine ⟨hwritten, ?_, hrest⟩
  have hfound : bodies (quiet ++ (l.receiver.scan l.pending).body.toList.map Signal.body) =
      (l.receiver.scan l.pending).body.toList := by
    rw [bodies_append, hbodies]
    cases (l.receiver.scan l.pending).body <;> rfl
  rwa [hfound] at hpaced

/-- A read comes only when nothing waits in the link, so when no frame waits there. -/
theorem paced_fetch {l l' : Link} {result : Except Fault Bytes} {t : Trace} (h : l.Open)
    (empty : l.pending = []) (fetched : fetch l = ⟨result, l', t⟩) :
    t.written = [] ∧ Paced l t [] { l' with pending := result.toOption.getD [] } := by
  obtain ⟨read, hread, heq⟩ := fetch_eq h
  have hstays := (advanced_serve h empty).stays
  rw [fetched] at heq
  obtain ⟨rfl, rfl, rfl⟩ := Outcome.mk.inj heq
  have hreads : Trace.reads [read] = 1 := by simp [Trace.reads, hread]
  have hcame : Trace.written [] = acknowledgements (bodies (l.receiver.run []).2) := rfl
  refine ⟨by rw [← Trace.written_effects, effects_read hread]; rfl, rfl, hstays, ?_, ?_, ?_⟩
  · rw [hreads]
    rfl
  · refine ⟨[], [], ?_, rfl, rfl⟩
    rw [hreads, received, empty, brought, brought]
    simp
  · intro u v other hsplit _
    obtain ⟨rfl, -⟩ : u = [] ∧ v = [] := by
      rcases List.cons_eq_append_iff.1 hsplit with ⟨rfl, hv⟩ | ⟨u', -, hnil⟩
      · exact ⟨rfl, (List.cons.inj hv).2⟩
      · simp at hnil
    rw [show Trace.reads [] = 0 from rfl, received, empty]
    exact hcame

theorem paced_nextBody {l : Link} (h : l.Open) :
    (nextBody l).trace.written = [] ∧
      Paced l (nextBody l).trace (nextBody l).result.toOption.toList (nextBody l).state := by
  fun_induction nextBody l with
  | case1 l body hb =>
    obtain ⟨hwritten, hpaced, -⟩ := paced_advance h
    rw [hb] at hpaced
    exact ⟨hwritten, hpaced⟩
  | case2 l hb fault l' t hf =>
    obtain ⟨hwritten, hpaced, hempty⟩ := paced_advance h
    rw [hb] at hpaced
    obtain ⟨hnothing, hfetched⟩ := paced_fetch hpaced.stays (hempty hb) hf
    -- nothing waited in the link, and a read that faults brings nothing
    have hsame : { l' with pending := [] } = l' := by
      obtain ⟨read, -, heq⟩ := fetch_eq hpaced.stays
      rw [hf] at heq
      obtain ⟨-, rfl, -⟩ := Outcome.mk.inj heq
      rw [← hempty hb]
    refine ⟨by rw [Trace.written_append, hwritten, hnothing, List.append_nil], ?_⟩
    have hboth := hpaced.trans hwritten hfetched
    rwa [show (Except.error fault : Except Fault Bytes).toOption.getD [] = [] from rfl, hsame]
      at hboth
  | case3 l hb data l' t hf ih =>
    obtain ⟨hwritten, hpaced, hempty⟩ := paced_advance h
    rw [hb] at hpaced
    obtain ⟨hnothing, hfetched⟩ := paced_fetch hpaced.stays (hempty hb) hf
    have hboth := hpaced.trans hwritten hfetched
    have hsilent : (l.advanceTrace ++ t).written = [] := by
      rw [Trace.written_append, hwritten, hnothing, List.append_nil]
    obtain ⟨hrest, hpacedRest⟩ := ih hboth.stays
    refine ⟨?_, hboth.trans hsilent hpacedRest⟩
    rw [Outcome.after, Trace.written_append, hsilent, hrest, List.append_nil]

/-- What comes about without reading, once frames have been found. -/
theorem Paced.append {l l' : Link} {t u : Trace} {found : List Bytes} (h : Paced l t found l')
    (silent : ∀ e ∈ u, ¬ e.isRead) : Paced l (t ++ u) found l' := by
  have hreads : (t ++ u).reads = t.reads := by
    rw [Trace.reads_append, show u.reads = 0 from List.countP_eq_zero.2 silent, Nat.add_zero]
  refine ⟨h.endpoint, h.stays, by rw [hreads, h.script], by rw [hreads]; exact h.taken, ?_⟩
  intro v w read hsplit hread
  rcases Trace.split_append hsplit with ⟨w', hfirst⟩ | ⟨v', -, hrest⟩
  · exact h.prompt v w' read hfirst hread
  · exact absurd hread (silent read (hrest ▸ by simp))

theorem Paced.resent {l l' : Link} {t : Trace} {found : List Bytes} (h : Paced l t found l')
    (sends : List (Option Fault)) : Paced l t found { l' with sends } :=
  ⟨h.endpoint, ⟨h.stays.framed, h.stays.connected, h.stays.steady⟩, h.script, h.taken, h.prompt⟩

theorem written_echo (e : Endpoint) (signals : List Signal) :
    Trace.written (signals.flatMap (echo e)) = acknowledgements (bodies signals) := by
  induction signals with
  | nil => rfl
  | cons s rest ih =>
    rw [List.flatMap_cons, Trace.written_append, ih, bodies_cons, acknowledgements_append]
    congr 1
    cases s with
    | quiet => rfl
    | dropped cause => rfl
    | body data =>
      cases e <;> cases hs : sequence? data <;> cases hf : foreign? data <;>
        simp [Trace.written, echo, acknowledgements, body?, hs, hf, sent, Event.written?]

/-- A frame is settled as soon as it has come, so that after each packet all frames are. -/
theorem paced_nextPacket {l : Link} (h : l.Open) :
    ∃ found, (nextPacket l).trace.written = acknowledgements found ∧
      Paced l (nextPacket l).trace found (nextPacket l).state := by
  have hone : ∀ (e : Endpoint) (body : Bytes),
      Trace.written (echo e (.body body)) = acknowledgements [body] := fun e body => by
    have hwritten := written_echo e [.body body]
    rwa [List.flatMap_singleton] at hwritten
  fun_induction nextPacket l with
  | case1 l fault l' t hb =>
    have hpaced := paced_nextBody h
    rw [hb] at hpaced
    exact ⟨[], hpaced⟩
  | case2 l l' t hb => exact absurd rfl (advanced_body h hb).1
  | case3 l protocol rest l' t hb data hc =>
    obtain ⟨hsilent, hpaced⟩ := hb ▸ paced_nextBody h
    refine ⟨[protocol :: rest], ?_, hpaced⟩
    rw [← hone l.endpoint, (of_packet l.endpoint hc).2.2]
    exact hsilent
  | case4 l protocol rest l' t hb sequence data hc =>
    obtain ⟨hsilent, hpaced⟩ := hb ▸ paced_nextBody h
    rw [acknowledge_eq hpaced.stays.held]
    refine ⟨[protocol :: rest], ?_, (hpaced.append fun e he => ?_).resent _⟩
    · rw [Trace.written_append, hsilent, List.nil_append, ← hone l.endpoint,
        (of_numbered l.endpoint hc).2.2, ← hpaced.endpoint]
    · obtain rfl := List.mem_singleton.1 he
      cases l'.endpoint <;> simp [sent, Event.isRead]
  | case5 l protocol rest l' t hb p hc ih =>
    obtain ⟨hsilent, hpaced⟩ := hb ▸ paced_nextBody h
    have hnoticed : Paced l (t ++ [.notice (.foreign p)]) [protocol :: rest] l' :=
      hpaced.append fun e he => by simp [List.mem_singleton.1 he, Event.isRead]
    have hsettled : Trace.written (t ++ [.notice (.foreign p)]) =
        acknowledgements [protocol :: rest] := by
      rw [Trace.written_append, hsilent, ← hone l.endpoint, (of_foreign l.endpoint hc).2.2]
      rfl
    obtain ⟨found, hwritten, hrest⟩ := ih hnoticed.stays
    refine ⟨[protocol :: rest] ++ found, ?_, hnoticed.trans hsettled hrest⟩
    rw [Outcome.after, Trace.written_append, hsettled, hwritten, acknowledgements_append]

theorem paced_calls (n : Nat) {l : Link} (h : l.Open) :
    ∃ found, (Act.calls nextPacket n l).trace.written = acknowledgements found ∧
      Paced l (Act.calls nextPacket n l).trace found (Act.calls nextPacket n l).state := by
  induction n generalizing l with
  | zero =>
    exact ⟨[], Paced.of_notices (t := []) (fun e he => absurd he List.not_mem_nil) rfl h rfl
      ⟨[], [], rfl, rfl, rfl⟩⟩
  | succ n ih =>
    obtain ⟨found, hwritten, hpaced⟩ := paced_nextPacket h
    obtain ⟨more, hwritten', hpaced'⟩ := ih hpaced.stays
    refine ⟨found ++ more, ?_, hpaced.trans hwritten hpaced'⟩
    rw [acknowledgements_append, ← hwritten, ← hwritten', ← Trace.written_append]
    rfl

theorem Called.written {l : Link} {n : Nat} {signals : List Signal} {c : Act.Calls Link Bytes}
    (h : Called .packets (echo l.endpoint) l n signals c) :
    c.trace.written = acknowledgements (bodies signals) := by
  rw [← Trace.written_effects, h.effects, written_echo]

/-- A call writes once at most, and if the write fails, that is how the call ends. -/
theorem nextPacket_refused {l : Link} (h : l.Open) :
    (nextPacket l).trace.written.length ≤ 1 ∧
      ∀ fault, l.refusal = some fault → (nextPacket l).trace.written ≠ [] →
        (nextPacket l).result = .error fault := by
  obtain ⟨signals, hyields⟩ := nextPacket_yields h
  have hwritten : (nextPacket l).trace.written = acknowledgements (bodies signals) := by
    rw [← Trace.written_effects, hyields.effects, written_echo]
  have hfewer := sequences_le_handed l.sends (bodies signals)
  rw [hwritten, acknowledgements, List.length_map, Ne, List.map_eq_nil_iff]
  rcases hyields.came with ⟨hgiven, -⟩ | ⟨hgiven, -⟩
  · have hone : handed l.sends (bodies signals) = [(nextPacket l).result] := hgiven
    rw [hone] at hfewer
    exact ⟨hfewer, fun fault refused asked => handed_refused refused hone asked⟩
  · have hnone : handed l.sends (bodies signals) = [] := hgiven
    rw [hnone] at hfewer
    have hnobody := List.length_eq_zero_iff.1 (Nat.le_zero.1 hfewer)
    exact ⟨Nat.le_trans hfewer (Nat.zero_le _), fun _ _ asked => absurd hnobody asked⟩

theorem coming_received (l : Link) (reads : Nat) :
    l.coming = l.received reads ++ bytesOf (beyond l.endpoint reads l.script) := by
  have hline : ∀ answers, bytesOf answers =
      brought l.endpoint reads answers ++ bytesOf (beyond l.endpoint reads answers) := by
    induction reads with
    | zero => exact fun _ => rfl
    | succ reads ih =>
      intro answers
      rw [bytesOf_serve l.endpoint, ih (serve l.endpoint answers).2, brought, List.append_assoc]
      rfl
  rw [received, List.append_assoc, ← hline, coming]

/-- What is written over any number of calls is the acknowledgement of each numbered frame they have
taken in, once and in order, so that before every read all frames that have come are acknowledged.
The other side reads the numbers back. A call writes once at most, each write comes to the next of
what is recorded of them, and a call whose write fails ends with that fault: no packet is handed out
but those of frames that are plain or whose acknowledgement went through. -/
theorem calls_acknowledge {l : Link} (h : l.Open) (n : Nat) :
    let c := Act.calls nextPacket n l
    (∃ taken, taken <+: bodies l.ahead ∧ (l.weight ≤ n → taken = bodies l.ahead) ∧
      c.trace.written = acknowledgements taken ∧
      c.gains = handedOut l.sends taken ∧
      ((∀ fault, some fault ∉ l.sends) → c.gains = taken.filterMap packet?) ∧
      Receiver.decode c.trace.written.flatten =
        (taken.filterMap sequence?).map fun sequence => [0x43, sequence]) ∧
    (∀ (u v : Trace) (read : Event), c.trace = u ++ read :: v → read.isRead →
      l.received u.reads <+: l.coming ∧
      u.written = acknowledgements (bodies (l.receiver.run (l.received u.reads)).2)) ∧
    c.state.sends = l.sends.drop c.trace.written.length ∧
    let o := nextPacket c.state
    o.trace.written.length ≤ 1 ∧
      ∀ fault, c.state.refusal = some fault → o.trace.written ≠ [] → o.result = .error fault := by
  intro c
  obtain ⟨signals, hc⟩ := calls_called echo (fun _ h => nextPacket_yields h) n h
  have hwritten : c.trace.written = acknowledgements (bodies signals) := hc.written
  refine ⟨⟨bodies signals, ?_, fun hn => ?_, hwritten, hc.gains, fun clear => ?_, ?_⟩,
    fun u v read hsplit hread => ?_, ?_, ?_⟩
  · rw [hc.advanced.ahead, bodies_append]
    exact List.prefix_append ..
  · rw [hc.advanced.ahead, ahead_of_usedUp (hc.usedUp hn), List.append_nil]
  · exact hc.gains.trans (handedOut_of_clear clear _)
  · rw [hwritten, decode_acknowledgements]
    rfl
  · obtain ⟨found, -, hpaced⟩ := paced_calls n h
    exact ⟨⟨_, (coming_received l u.reads).symm⟩, hpaced.prompt u v read hsplit hread⟩
  · rw [hwritten, acknowledgements, List.length_map]
    exact hc.sends
  · exact nextPacket_refused hc.advanced.stays

/-- Numbers that are escaped in their acknowledgements, in frames that come in pieces. The second
acknowledgement is refused, and its packet is not handed out. -/
theorem calls_acknowledge_escaped :
    let stream := Frame.encode [0x44, 0x7E, 1] ++ Frame.encode [0x45, 2] ++ Frame.encode [0x44] ++
      Frame.encode [0x44, 0x7D, 3] ++ Frame.encode [0x44, 5, 4]
    let full := Fault.outside .timeout "write timeout"
    let l : Link :=
      { endpoint := .network "mote" 10002
        connection := some [.chunk (stream.take 5), .fails (.outside .timeout "slow"),
          .chunk (stream.drop 5)]
        sends := [none, some full] }
    let c := Act.calls nextPacket l.weight l
    c.gains = [[1], [2], [4]] ∧
      c.trace.written = [Frame.ack 0x7E, Frame.ack 0x7D, Frame.ack 5] ∧
      Receiver.decode c.trace.written.flatten = [[0x43, 0x7E], [0x43, 0x7D], [0x43, 5]] ∧
      (nextPacket (Act.calls nextPacket 3 l).state).result = .error full := by
  intro stream full l c
  have hopen : l.Open := ⟨trivial, rfl, by simp [Steady, script, l]⟩
  obtain ⟨⟨taken, -, hall, hwritten, hgains, -, hdecoded⟩, -⟩ := calls_acknowledge hopen l.weight
  have hframes : bodies l.ahead =
      [[0x44, 0x7E, 1], [0x45, 2], [0x44], [0x44, 0x7D, 3], [0x44, 5, 4]] := by
    decide +kernel
  obtain rfl := (hall (Nat.le_refl _)).trans hframes
  obtain ⟨-, -, -, -, hrefused⟩ := calls_acknowledge hopen 3
  exact ⟨hgains, hwritten, hdecoded, hrefused full (by decide +kernel) (by decide +kernel)⟩

end Link
end MoteLink
