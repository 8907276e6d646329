import MoteLink.Proofs.Link.Stream

/-! Packets out of the frames of a link, whatever pieces these come in. Main statement:
`nextPacket_yields`. -/

namespace MoteLink

/-- The packet in a body: behind the protocol byte, or behind the number of a numbered packet. -/
def packet? : Bytes → Option Bytes
  | [] => none
  | protocol :: rest =>
    if protocol = 0x45 then some rest
    else if protocol = 0x44 ∧ rest ≠ [] then some rest.tail
    else none

/-- The protocol byte of a body that holds no packet. -/
def foreign? (body : Bytes) : Option UInt8 :=
  if packet? body = none then body.head? else none

def sequence? : Bytes → Option UInt8
  | protocol :: sequence :: _ => if protocol = 0x44 then some sequence else none
  | _ => none

/-- What comes of the packets in some frames, one after another. A numbered one takes the next of
what is recorded of the writes, and is not handed out if its acknowledgement fails. -/
def handed : List (Option Fault) → List Bytes → List (Except Fault Bytes)
  | _, [] => []
  | sends, body :: rest =>
    match sequence? body with
    | none => (packet? body).toList.map .ok ++ handed sends rest
    | some _ =>
      (packet? body).toList.map
          (fun packet => (Fault.ended (sends.headD none)).map fun _ => packet) ++
        handed sends.tail rest

theorem handed_append (sends : List (Option Fault)) (a b : List Bytes) :
    handed sends (a ++ b) =
      handed sends a ++ handed (sends.drop (a.filterMap sequence?).length) b := by
  induction a generalizing sends with
  | nil => rfl
  | cons body a ih =>
    rw [List.cons_append, handed, handed]
    cases hs : sequence? body with
    | none => simp only [List.filterMap_cons_none hs, ih, List.append_assoc]
    | some sequence =>
      simp only [List.filterMap_cons_some hs, ih, List.append_assoc, List.length_cons,
        List.drop_tail]

theorem mem_handed {sends : List (Option Fault)} {bodies : List Bytes} {fault : Fault}
    (h : .error fault ∈ handed sends bodies) : some fault ∈ sends := by
  induction bodies generalizing sends with
  | nil => exact absurd h List.not_mem_nil
  | cons body rest ih =>
    rw [handed] at h
    cases hs : sequence? body with
    | none =>
      rw [hs] at h
      rcases List.mem_append.1 h with hfirst | hrest
      · simp at hfirst
      · exact ih hrest
    | some sequence =>
      rw [hs] at h
      rcases List.mem_append.1 h with hfirst | hrest
      · obtain ⟨packet, -, hpacket⟩ := List.mem_map.1 hfirst
        cases sends with
        | nil => exact nomatch hpacket
        | cons refusal sends =>
          cases refusal with
          | none => exact nomatch hpacket
          | some f => exact Except.error.inj hpacket ▸ List.mem_cons_self ..
      · exact List.mem_of_mem_tail (ih hrest)

/-- If no write fails, all packets are handed out. -/
theorem handed_of_clear {sends : List (Option Fault)} (clear : ∀ fault, some fault ∉ sends)
    (bodies : List Bytes) : handed sends bodies = (bodies.filterMap packet?).map .ok := by
  induction bodies generalizing sends with
  | nil => rfl
  | cons body rest ih =>
    have hnone : sends.headD none = none := by
      cases sends with
      | nil => rfl
      | cons refusal sends =>
        cases refusal with
        | none => rfl
        | some fault => exact absurd (List.mem_cons_self ..) (clear fault)
    have htail : ∀ fault, some fault ∉ sends.tail :=
      fun fault hm => clear fault (List.mem_of_mem_tail hm)
    rw [handed, ih clear, ih htail, hnone, List.filterMap_cons]
    cases sequence? body <;> cases packet? body <;> rfl

/-- The packets that are handed out. -/
def handedOut (sends : List (Option Fault)) (bodies : List Bytes) : List Bytes :=
  (handed sends bodies).filterMap Except.toOption

theorem handedOut_of_clear {sends : List (Option Fault)} (clear : ∀ fault, some fault ∉ sends)
    (bodies : List Bytes) : handedOut sends bodies = bodies.filterMap packet? := by
  rw [handedOut, handed_of_clear clear, List.filterMap_map]
  exact List.filterMap_some

/-- How the frames that have come are used: what comes of them, and how many writes that takes. -/
structure Use where
  given : List (Option Fault) → List Bytes → List (Except Fault Bytes)
  writes : List Bytes → Nat
  given_append (sends : List (Option Fault)) (a b : List Bytes) :
    given sends (a ++ b) = given sends a ++ given (sends.drop (writes a)) b
  writes_append (a b : List Bytes) : writes (a ++ b) = writes a + writes b

namespace Use

def frames : Use where
  given _ bodies := bodies.map .ok
  writes _ := 0
  given_append _ _ _ := List.map_append
  writes_append _ _ := rfl

def packets : Use where
  given := handed
  writes bodies := (bodies.filterMap sequence?).length
  given_append := handed_append
  writes_append a b := by rw [List.filterMap_append, List.length_append]

/-- What is handed out. -/
def gains (use : Use) (sends : List (Option Fault)) (bodies : List Bytes) : List Bytes :=
  (use.given sends bodies).filterMap Except.toOption

theorem writes_nil (use : Use) : use.writes [] = 0 := by
  have hboth := use.writes_append [] []
  rw [List.append_nil] at hboth
  omega

theorem given_nil (use : Use) (sends : List (Option Fault)) : use.given sends [] = [] := by
  have hboth := use.given_append sends [] []
  rw [List.append_nil, use.writes_nil, List.drop_zero] at hboth
  exact List.self_eq_append_left.1 hboth

theorem gains_frames (sends : List (Option Fault)) (bodies : List Bytes) :
    frames.gains sends bodies = bodies := by
  rw [gains, frames, List.filterMap_map]
  exact List.filterMap_some

end Use

namespace Link
open Answer Signal

/-- What a signal brings about on the way to a packet. -/
def echo (e : Endpoint) : Signal → Trace
  | .quiet => []
  | .dropped cause => [.notice (.dropped cause)]
  | .body data =>
    (sequence? data).toList.map (fun sequence => sent e (Frame.ack sequence.toNat)) ++
      (foreign? data).toList.map fun protocol => .notice (.foreign protocol)

theorem flatMap_echo_of_bodies {e : Endpoint} {quiet : List Signal} (h : bodies quiet = []) :
    quiet.flatMap (echo e) = report quiet := by
  induction quiet with
  | nil => rfl
  | cons s rest ih =>
    rw [bodies_cons, List.append_eq_nil_iff] at h
    rw [List.flatMap_cons, ih h.2]
    cases s with
    | quiet => rfl
    | dropped cause => rfl
    | body data => simp [body?] at h

theorem of_packet {protocol : UInt8} {rest data : Bytes} (e : Endpoint)
    (h : Content.of protocol rest = .packet data) :
    packet? (protocol :: rest) = some data ∧ sequence? (protocol :: rest) = none ∧
      echo e (.body (protocol :: rest)) = [] := by
  unfold Content.of at h
  split at h
  · rename_i hp
    obtain rfl := Content.packet.inj h
    obtain rfl : protocol = 0x45 := hp
    cases rest <;> simp [packet?, echo, sequence?, foreign?]
  · split at h
    · split at h <;> simp at h
    · simp at h

theorem of_numbered {protocol sequence : UInt8} {rest data : Bytes} (e : Endpoint)
    (h : Content.of protocol rest = .numbered sequence data) :
    packet? (protocol :: rest) = some data ∧ sequence? (protocol :: rest) = some sequence ∧
      echo e (.body (protocol :: rest)) = [sent e (Frame.ack sequence.toNat)] := by
  unfold Content.of at h
  split at h
  · simp at h
  · split at h
    · rename_i hp
      obtain rfl : protocol = 0x44 := hp
      split at h
      · simp at h
      · obtain ⟨rfl, rfl⟩ := Content.numbered.inj h
        simp [packet?, echo, sequence?, foreign?]
    · simp at h

theorem of_foreign {protocol p : UInt8} {rest : Bytes} (e : Endpoint)
    (h : Content.of protocol rest = .foreign p) :
    packet? (protocol :: rest) = none ∧ sequence? (protocol :: rest) = none ∧
      echo e (.body (protocol :: rest)) = [.notice (.foreign p)] := by
  unfold Content.of at h
  split at h
  · simp at h
  · rename_i hplain
    have hplain' : protocol ≠ 0x45 := hplain
    split at h
    · rename_i hp
      obtain rfl : protocol = 0x44 := hp
      split at h
      · obtain rfl := Content.foreign.inj h
        simp [packet?, echo, sequence?, foreign?]
      · simp at h
    · rename_i hp
      have hp' : protocol ≠ 0x44 := hp
      obtain rfl := Content.foreign.inj h
      cases rest <;> simp [packet?, echo, sequence?, foreign?, hplain', hp']

/-- What reading on brings about until a body has come of which something comes by `use`, or until
a read faults. `say` is what each signal brings about on the way. -/
structure Yields (use : Use) (say : Signal → Trace) (l : Link) (signals : List Signal)
    (o : Outcome Link Bytes) : Prop where
  advanced : Advanced l signals o.state
  effects : o.trace.effects = signals.flatMap say
  sends : o.state.sends = l.sends.drop (use.writes (bodies signals))
  came : use.given l.sends (bodies signals) = [o.result] ∧ o.state.weight < l.weight ∨
    use.given l.sends (bodies signals) = [] ∧
      ∃ fault, o.result = .error fault ∧ Stalled l fault o.state

section
variable {use : Use} {say : Signal → Trace} {l : Link} {signals : List Signal}
  {o : Outcome Link Bytes}

theorem Yields.gains (h : Yields use say l signals o) :
    use.gains l.sends (bodies signals) = o.result.toOption.toList := by
  rcases h.came with ⟨hgiven, -⟩ | ⟨hgiven, fault, hfault, -⟩
  · rw [Use.gains, hgiven]
    cases o.result <;> rfl
  · rw [Use.gains, hgiven, hfault]
    rfl

theorem Yields.lighter (h : Yields use say l signals o) {found : Bytes}
    (ok : o.result = .ok found) : o.state.weight < l.weight := by
  rcases h.came with ⟨-, hlighter⟩ | ⟨-, fault, hfault, -⟩
  · exact hlighter
  · exact nomatch ok.symm.trans hfault

/-- If no write fails, what is found is a packet, and it is a read that faults. -/
theorem Yields.clear (h : Yields .packets say l signals o)
    (clear : ∀ fault, some fault ∉ l.sends) :
    o.result.toOption.toList = (bodies signals).filterMap packet? ∧
      ∀ fault, o.result = .error fault → Stalled l fault o.state := by
  refine ⟨by rw [← h.gains]; exact handedOut_of_clear clear _, fun fault hfault => ?_⟩
  rcases h.came with ⟨hgiven, -⟩ | ⟨-, fault', hfault', hstalled⟩
  · have hrefused : .error fault ∈ Use.packets.given l.sends (bodies signals) := by
      rw [hgiven, hfault]
      exact List.mem_singleton_self _
    exact absurd (mem_handed hrefused) (clear fault)
  · obtain rfl := Except.error.inj (hfault.symm.trans hfault')
    exact hstalled

end

theorem nextBody_yields {l : Link} (h : l.Open) :
    ∃ signals, Yields .frames (fun s => report [s]) l signals (nextBody l) := by
  obtain ⟨⟨quiet, hquiet, hreport, hadv⟩, hsends, hlighter, hstalled⟩ := nextBody_drawn h
  have hflat : ∀ signals : List Signal, signals.flatMap (fun s => report [s]) = report signals := by
    intro signals
    induction signals with
    | nil => rfl
    | cons s rest ih => rw [List.flatMap_cons, ih, ← report_append]; rfl
  refine ⟨_, hadv, ?_, hsends, ?_⟩
  · rw [hflat, report_append, hreport]
    cases (nextBody l).result <;> simp [report, drops, Except.toOption, drop?]
  · rw [bodies_append, hquiet]
    cases hr : (nextBody l).result with
    | ok body => exact .inl ⟨rfl, hlighter body hr⟩
    | error fault => exact .inr ⟨rfl, fault, rfl, hstalled fault hr⟩

theorem effects_sent (e : Endpoint) (data : Bytes) :
    Trace.effects [sent e data] = [sent e data] := by
  cases e <;> rfl

theorem advanced_body {l l' : Link} {body : Bytes} {t : Trace} (h : l.Open)
    (hb : nextBody l = ⟨.ok body, l', t⟩) :
    body ≠ [] ∧ l'.weight < l.weight ∧ l'.sends = l.sends ∧
      ∃ signals, Advanced l signals l' ∧ bodies signals = [body] ∧
        t.effects ++ echo l.endpoint (.body body) = signals.flatMap (echo l.endpoint) := by
  obtain ⟨⟨quiet, hquiet, hreport, hadv⟩, hsends, hlighter, _⟩ := hb ▸ nextBody_drawn h
  have hbodies : bodies (quiet ++ [.body body]) = [body] := by rw [bodies_append, hquiet]; rfl
  refine ⟨?_, hlighter body rfl, hsends, quiet ++ [.body body], hadv, hbodies, ?_⟩
  · obtain ⟨used, _, hrun⟩ := hadv.taken
    refine @Receiver.ne_nil_of_mem_bodies l.receiver used body ?_
    rw [hrun]
    exact hbodies ▸ List.mem_singleton_self body
  · rw [List.flatMap_append, flatMap_echo_of_bodies hquiet, ← hreport]
    simp

theorem nextPacket_of_fault {l l' : Link} {fault : Fault} {t : Trace}
    (h : nextBody l = ⟨.error fault, l', t⟩) : nextPacket l = ⟨.error fault, l', t⟩ := by
  rw [nextPacket]
  split <;> simp_all

theorem nextPacket_of_empty {l l' : Link} {t : Trace} (h : nextBody l = ⟨.ok [], l', t⟩) :
    nextPacket l = ⟨.error .emptyBody, l', t⟩ := by
  rw [nextPacket]
  split <;> simp_all

theorem nextPacket_of_body {l l' : Link} {protocol : UInt8} {rest : Bytes} {t : Trace}
    (h : nextBody l = ⟨.ok (protocol :: rest), l', t⟩) :
    nextPacket l =
      match Content.of protocol rest with
      | .packet data => ⟨.ok data, l', t⟩
      | .numbered sequence data =>
        ((write (Frame.ack sequence.toNat) >>= fun _ => pure data) l').after t
      | .foreign protocol => (nextPacket l').after (t ++ [.notice (.foreign protocol)]) := by
  rw [nextPacket]
  split
  · simp_all
  · simp_all
  · rename_i hb
    obtain ⟨hbody, rfl, rfl⟩ := Outcome.mk.inj (hb.symm.trans h)
    obtain ⟨rfl, rfl⟩ := List.cons.inj (Except.ok.inj hbody)
    rfl

/-- A packet with a number is handed out if its acknowledgement goes through. Otherwise it is gone,
and its fault is what comes of it. -/
theorem acknowledge_eq {l : Link} (held : l.connection.isSome) (sequence : UInt8) (data : Bytes)
    (t : Trace) :
    ((write (Frame.ack sequence.toNat) >>= fun _ => pure data) l).after t =
      ⟨(Fault.ended l.refusal).map fun _ => data, { l with sends := l.sends.tail },
        t ++ [sent l.endpoint (Frame.ack sequence.toNat)]⟩ := by
  rw [Act.run_bind, write_eq held]
  cases l.refusal <;> simp [Fault.ended, Outcome.after, Except.map]

theorem nextPacket_yields {l : Link} (h : l.Open) :
    ∃ signals, Yields .packets (echo l.endpoint) l signals (nextPacket l) := by
  fun_induction nextPacket l with
  | case1 l fault l' t hb =>
    obtain ⟨⟨quiet, hquiet, hreport, hadv⟩, hsends, -, hstalled⟩ := hb ▸ nextBody_drawn h
    refine ⟨quiet, by simpa [Except.toOption] using hadv, ?_, ?_, .inr ⟨?_, fault, rfl, ?_⟩⟩
    · rw [flatMap_echo_of_bodies hquiet]
      exact hreport
    · rw [hquiet]
      exact hsends
    · rw [hquiet]
      rfl
    · exact hstalled fault rfl
  | case2 l l' t hb => exact absurd rfl (advanced_body h hb).1
  | case3 l protocol rest l' t hb data hc =>
    obtain ⟨-, hlighter, hsends, signals, hadv, hbodies, hecho⟩ := advanced_body h hb
    obtain ⟨hpacket, hplain, hsaid⟩ := of_packet l.endpoint hc
    rw [hsaid, List.append_nil] at hecho
    refine ⟨signals, hadv, hecho, ?_, .inl ⟨?_, hlighter⟩⟩
    · simp [hbodies, Use.packets, hplain, hsends]
    · simp [hbodies, Use.packets, handed, hplain, hpacket]
  | case4 l protocol rest l' t hb sequence data hc =>
    obtain ⟨-, hlighter, hsends, signals, hadv, hbodies, hecho⟩ := advanced_body h hb
    obtain ⟨hpacket, hnumbered, hsaid⟩ := of_numbered l.endpoint hc
    rw [acknowledge_eq hadv.stays.held]
    refine ⟨signals, hadv.resent _, ?_, ?_, .inl ⟨?_, hlighter⟩⟩
    · rw [Trace.effects_append, effects_sent, hadv.endpoint, ← hsaid, hecho]
    · simp [hbodies, Use.packets, hnumbered, hsends]
    · simp [hbodies, Use.packets, handed, hnumbered, hpacket, refusal, hsends]
  | case5 l protocol rest l' t hb p hc ih =>
    obtain ⟨-, hlighter, hsends, signals, hadv, hbodies, hecho⟩ := advanced_body h hb
    obtain ⟨hpacket, hplain, hsaid⟩ := of_foreign l.endpoint hc
    obtain ⟨signals', hadv', heffects, hsends', hcame⟩ := ih hadv.stays
    -- a foreign frame takes no write and gives nothing, so all depends on what comes behind it
    have hnothing : ∀ rest, handed l.sends (bodies signals ++ rest) = handed l'.sends rest := by
      intro rest
      simp [hbodies, handed, hplain, hpacket, hsends]
    have hwrites : Use.packets.writes (bodies signals) = 0 := by simp [hbodies, Use.packets, hplain]
    refine ⟨signals ++ signals', hadv.trans hadv', ?_, ?_, ?_⟩
    · rw [hsaid] at hecho
      rw [List.flatMap_append, ← hecho, ← hadv.endpoint, ← heffects]
      simp [Outcome.after, Trace.effects, Event.isRead]
    · rw [bodies_append, Use.packets.writes_append, hwrites, Nat.zero_add, ← hsends]
      exact hsends'
    · rw [bodies_append, show Use.packets.given = handed from rfl, hnothing]
      rcases hcame with ⟨hgiven, hless⟩ | ⟨hgiven, fault, hfault, hstalled⟩
      · exact .inl ⟨hgiven, Nat.lt_trans hless hlighter⟩
      · exact .inr ⟨hgiven, fault, hfault, hstalled.of_advanced hadv⟩

end Link
end MoteLink
