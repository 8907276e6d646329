import MoteLink.Proofs.Link.Packets

/-! Connections read up to the first read that fails, whatever that one fails with and whether a
stop is asked for meanwhile. What comes of reading on is told by the bytes before that read and by
its fault. Main statement: `nextPacket_drains`. -/

namespace MoteLink

/-- Whether a read that brings this is told that the connection is over. -/
def Endpoint.endsWith (e : Endpoint) (data : Bytes) : Bool :=
  match e with
  | .serial .. => false
  | _ => data.isEmpty

namespace Answer

/-- The bytes that come before the first read that fails. -/
def before (e : Endpoint) : List Answer → Bytes
  | .chunk data :: rest => if e.endsWith data then [] else data ++ before e rest
  | _ => []

/-- The fault of the first read that fails. -/
def breaking (e : Endpoint) : List Answer → Fault
  | [] => e.ending
  | .chunk data :: rest => if e.endsWith data then e.ending else breaking e rest
  | .fails fault :: _ | .stops fault :: _ => fault

end Answer

namespace Link
open Answer Signal

theorem before_leave (e : Endpoint) (data : Bytes) (rest : List Answer) :
    before e (leave data rest) = data ++ before e rest ∧
      breaking e (leave data rest) = breaking e rest := by
  cases data with
  | nil => exact ⟨rfl, rfl⟩
  | cons b data =>
    have hgoes : e.endsWith (b :: data) = false := by cases e <;> rfl
    simp [leave, before, breaking, hgoes]

/-- A read that brings bytes takes them off what comes before the first read that fails. One that
fails is that read. -/
theorem serve_before (e : Endpoint) (answers : List Answer) :
    (∀ data, (serve e answers).1 = .ok data →
        before e answers = data ++ before e (serve e answers).2 ∧
          breaking e (serve e answers).2 = breaking e answers) ∧
      ∀ fault, (serve e answers).1 = .error fault →
        before e answers = [] ∧ fault = breaking e answers := by
  cases answers with
  | nil => exact ⟨fun _ h => (by cases h), fun _ h => ⟨rfl, (Except.error.inj h).symm⟩⟩
  | cons answer rest =>
    cases answer with
    | fails fault | stops fault =>
      exact ⟨fun _ h => (by cases h), fun _ h => ⟨rfl, (Except.error.inj h).symm⟩⟩
    | chunk data =>
      cases e with
      | serial device baud => exact ⟨fun _ h => ⟨by cases h; rfl, rfl⟩, fun _ h => by cases h⟩
      | network host port | forwarder host port =>
        cases data with
        | nil => exact ⟨fun _ h => (by cases h), fun _ h => ⟨rfl, (Except.error.inj h).symm⟩⟩
        | cons b data =>
          refine ⟨fun _ h => ?_, fun _ h => by cases h⟩
          obtain rfl := Except.ok.inj h
          obtain ⟨hbefore, hbreaking⟩ := before_leave _ ((b :: data).drop 4096) rest
          refine ⟨?_, hbreaking⟩
          change b :: data ++ before _ rest = _
          rw [show (serve _ _).2 = leave ((b :: data).drop 4096) rest from rfl, hbefore,
            ← List.append_assoc, List.take_append_drop]

/-- The bytes that a link will give before a read fails, and the fault of that read. -/
def ready (l : Link) : Bytes := l.pending ++ before l.endpoint l.script

def breaking (l : Link) : Fault := Answer.breaking l.endpoint l.script

theorem fetch_serve {l : Link} (framed : l.endpoint.Framed) {answers : List Answer}
    (held : l.connection = some answers) :
    (fetch l).result = (serve l.endpoint answers).1 ∧
      ∀ data, (fetch l).result = .ok data →
        (fetch l).state = { l with connection := some (serve l.endpoint answers).2 } := by
  obtain ⟨endpoint, recording, connection, sends, receiver, pending, stopping⟩ := l
  obtain rfl : connection = some answers := held
  cases endpoint with
  | serial device baud =>
    cases answers with
    | nil => exact ⟨rfl, fun _ h => by cases h⟩
    | cons answer rest =>
      cases answer with
      | chunk data =>
        rw [fetch, readPort_chunk rfl]
        exact ⟨rfl, fun _ _ => rfl⟩
      | fails fault | stops fault => exact ⟨rfl, fun _ h => by cases h⟩
  | network host port =>
    cases answers with
    | nil => exact ⟨rfl, fun _ h => by cases h⟩
    | cons answer rest =>
      cases answer with
      | chunk data =>
        rw [fetch, receiveSome, Act.bind_ok (receive_chunk 4096 rfl)]
        cases data with
        | nil => exact ⟨rfl, fun _ h => by cases h⟩
        | cons b data => exact ⟨rfl, fun _ _ => rfl⟩
      | fails fault | stops fault => exact ⟨rfl, fun _ h => by cases h⟩
  | forwarder host port => exact framed.elim

/-- `l'` is `l` after its receiver took in some of the bytes that are ready, with these signals. -/
structure Moves (l : Link) (signals : List Signal) (l' : Link) : Prop where
  endpoint : l'.endpoint = l.endpoint
  stopping : l'.stopping = l.stopping
  held : l'.connection = some l'.script
  breaking : l'.breaking = l.breaking
  taken : ∃ used, l.ready = used ++ l'.ready ∧ l.receiver.run used = (l'.receiver, signals)

theorem Moves.trans {l l' l'' : Link} {a b : List Signal} (h : Moves l a l') (h' : Moves l' b l'') :
    Moves l (a ++ b) l'' := by
  obtain ⟨used, hready, hrun⟩ := h.taken
  obtain ⟨used', hready', hrun'⟩ := h'.taken
  refine ⟨h'.endpoint.trans h.endpoint, h'.stopping.trans h.stopping, h'.held,
    h'.breaking.trans h.breaking, used ++ used', ?_, ?_⟩
  · rw [hready, hready', List.append_assoc]
  · rw [Receiver.run_append, hrun, hrun']

/-- The bodies that a link will give before a read fails. -/
def due (l : Link) : List Bytes := bodies (l.receiver.run l.ready).2

theorem Moves.due {l l' : Link} {signals : List Signal} (h : Moves l signals l') :
    l.due = bodies signals ++ l'.due := by
  obtain ⟨used, hready, hrun⟩ := h.taken
  rw [Link.due, hready, Receiver.run_append, hrun]
  exact bodies_append ..

theorem moves_advance {l : Link} (held : l.connection = some l.script) :
    ∃ quiet, bodies quiet = [] ∧
      Moves l (quiet ++ (l.receiver.scan l.pending).body.toList.map .body) l.advance ∧
      ((l.receiver.scan l.pending).body = none → l.advance.pending = []) := by
  obtain ⟨used, quiet, hdata, hrun, hbodies, -, hrest⟩ := scan_run l.receiver l.pending
  refine ⟨quiet, hbodies, ⟨rfl, rfl, held, rfl, used, ?_, hrun⟩, hrest⟩
  conv => lhs; rw [ready, hdata, List.append_assoc]
  rfl

theorem moves_fetch {l l' : Link} {data : Bytes} {t : Trace} (framed : l.endpoint.Framed)
    (held : l.connection = some l.script) (empty : l.pending = [])
    (fetched : fetch l = ⟨.ok data, l', t⟩) :
    Moves l [] { l' with pending := data } ∧ l'.sends = l.sends := by
  obtain ⟨hresult, hstate⟩ := fetch_serve framed held
  rw [fetched] at hresult hstate
  obtain ⟨hbefore, hbreaking⟩ := (serve_before l.endpoint l.script).1 data hresult.symm
  obtain rfl : l' = { l with connection := some (serve l.endpoint l.script).2 } := hstate data rfl
  refine ⟨⟨rfl, rfl, rfl, hbreaking, [], ?_, rfl⟩, rfl⟩
  rw [ready, empty, hbefore]
  rfl

/-- What is handed out before the first fault, and that fault. `last` is the one behind all. -/
def upToFault (last : Fault) : List (Except Fault Bytes) → List Bytes × Fault
  | [] => ([], last)
  | .error fault :: _ => ([], fault)
  | .ok packet :: rest => (packet :: (upToFault last rest).1, (upToFault last rest).2)

theorem upToFault_map_ok (last : Fault) (packets : List Bytes) :
    upToFault last (packets.map .ok) = (packets, last) := by
  induction packets with
  | nil => rfl
  | cons packet rest ih => rw [List.map_cons, upToFault, ih]

/-- What a link will give before a fault, and that fault, which is that of a read if none comes of
what was read before. -/
def drawn (use : Use) (l : Link) : List Bytes × Fault :=
  upToFault l.breaking (use.given l.sends l.due)

/-- What reading on until a body has come of which something comes by `use` comes to. -/
structure Drains (use : Use) (l : Link) (o : Outcome Link Bytes) : Prop where
  found : ∀ found, o.result = .ok found →
    ∃ signals, Moves l signals o.state ∧
      o.state.sends = l.sends.drop (use.writes (bodies signals)) ∧
      use.given l.sends (bodies signals) = [.ok found]
  broken : ∀ fault, o.result = .error fault → l.drawn use = ([], fault)

theorem Moves.drawn {use : Use} {l l' : Link} {signals : List Signal} (h : Moves l signals l')
    (sends : l'.sends = l.sends.drop (use.writes (bodies signals))) :
    l.drawn use =
      upToFault l'.breaking (use.given l.sends (bodies signals) ++ use.given l'.sends l'.due) := by
  rw [Link.drawn, h.due, use.given_append, ← sends, h.breaking]

theorem Drains.of_moves {use : Use} {l l' : Link} {signals : List Signal}
    {o : Outcome Link Bytes} (h : Moves l signals l')
    (sends : l'.sends = l.sends.drop (use.writes (bodies signals)))
    (nothing : use.given l.sends (bodies signals) = []) (drains : Drains use l' o) (t : Trace) :
    Drains use l (o.after t) := by
  refine ⟨fun found hfound => ?_, fun fault hfault => ?_⟩
  · obtain ⟨signals', hmoves, hsends, hvalue⟩ := drains.found found hfound
    refine ⟨signals ++ signals', h.trans hmoves, ?_, ?_⟩
    · rw [bodies_append, use.writes_append, ← List.drop_drop, ← sends]
      exact hsends
    · rw [bodies_append, use.given_append, nothing, ← sends, hvalue, List.nil_append]
  · rw [h.drawn sends, nothing, List.nil_append]
    exact drains.broken fault hfault

theorem nextBody_drains {l : Link} (framed : l.endpoint.Framed)
    (held : l.connection = some l.script) : Drains .frames l (nextBody l) := by
  fun_induction nextBody l with
  | case1 l body hb =>
    obtain ⟨quiet, hquiet, hmoves, -⟩ := moves_advance held
    rw [hb] at hmoves
    refine ⟨fun found hfound => ⟨_, hmoves, rfl, ?_⟩, fun _ h => by cases h⟩
    obtain rfl : body = found := Except.ok.inj hfound
    rw [bodies_append, hquiet]
    rfl
  | case2 l hb fault l' t hf =>
    obtain ⟨quiet, hquiet, hmoves, hempty⟩ := moves_advance held
    rw [hb] at hmoves
    have hresult := (fetch_serve (l := l.advance) framed held).1
    rw [hf] at hresult
    obtain ⟨hnothing, hcause⟩ := (serve_before l.advance.endpoint l.script).2 fault hresult.symm
    refine ⟨fun _ h => (by cases h), fun fault' hfault => ?_⟩
    obtain rfl : fault = fault' := Except.error.inj hfault
    -- nothing waits in the link and nothing comes before the fault, so all that came was used
    have hready : l.advance.ready = [] := by
      rw [ready, hempty hb]
      exact hnothing
    rw [hmoves.drawn rfl, due, hready, bodies_append, hquiet, hcause]
    rfl
  | case3 l hb data l' t hf ih =>
    obtain ⟨quiet, hquiet, hmoves, hempty⟩ := moves_advance held
    rw [hb] at hmoves
    obtain ⟨hfetch, hsends⟩ := moves_fetch (l := l.advance) framed held (hempty hb) hf
    have hall := hmoves.trans hfetch
    refine .of_moves hall ?_ ?_ (ih ?_ hfetch.held) _
    · exact hsends
    · rw [bodies_append, bodies_append, hquiet]
      rfl
    · rw [hfetch.endpoint]
      exact framed

/-- What comes of writes has no part in what is read. -/
theorem Moves.resent {l l' : Link} {signals : List Signal} (h : Moves l signals l')
    (sends : List (Option Fault)) : Moves l signals { l' with sends } :=
  ⟨h.endpoint, h.stopping, h.held, h.breaking, h.taken⟩

/-- A packet that is read is the next one that the link has to give, and a fault comes only when
there is none, or when it cannot be acknowledged. -/
theorem nextPacket_drains {l : Link} (framed : l.endpoint.Framed)
    (held : l.connection = some l.script) : Drains .packets l (nextPacket l) := by
  have hbody {l l' : Link} {body : Bytes} {t : Trace} (framed : l.endpoint.Framed)
      (held : l.connection = some l.script) (hb : nextBody l = ⟨.ok body, l', t⟩) :
      ∃ signals, Moves l signals l' ∧ l'.sends = l.sends ∧ bodies signals = [body] := by
    have hdrains := nextBody_drains framed held
    rw [hb] at hdrains
    obtain ⟨signals, hmoves, hsends, hvalue⟩ := hdrains.found body rfl
    refine ⟨signals, hmoves, hsends, ?_⟩
    have hbodies := congrArg (List.filterMap Except.toOption) hvalue
    rwa [← Use.gains, Use.gains_frames] at hbodies
  fun_induction nextPacket l with
  | case1 l fault l' t hb =>
    have hdrains := nextBody_drains framed held
    rw [hb] at hdrains
    refine ⟨fun _ h => (by cases h), fun fault' hfault => ?_⟩
    have hbroken := hdrains.broken fault' hfault
    rw [drawn] at hbroken ⊢
    -- no body comes before the fault, so no packet either
    cases hdue : l.due with
    | nil => rwa [hdue] at hbroken
    | cons body rest => rw [hdue] at hbroken; cases hbroken
  | case2 l l' t hb =>
    obtain ⟨signals, hmoves, -, hvalue⟩ := hbody framed held hb
    obtain ⟨used, -, hrun⟩ := hmoves.taken
    have hempty : [] ∈ bodies (l.receiver.run used).2 := by
      rw [hrun, hvalue]
      exact List.mem_singleton_self []
    exact absurd rfl (Receiver.ne_nil_of_mem_bodies hempty)
  | case3 l protocol rest l' t hb data hc =>
    obtain ⟨signals, hmoves, hsends, hvalue⟩ := hbody framed held hb
    obtain ⟨hpacket, hplain, -⟩ := of_packet l.endpoint hc
    refine ⟨fun found hfound => ⟨signals, hmoves, ?_, ?_⟩, fun _ h => by cases h⟩
    · simp [hvalue, Use.packets, hplain, hsends]
    · obtain rfl : data = found := Except.ok.inj hfound
      simp [hvalue, Use.packets, handed, hplain, hpacket]
  | case4 l protocol rest l' t hb sequence data hc =>
    obtain ⟨signals, hmoves, hsends, hvalue⟩ := hbody framed held hb
    obtain ⟨hpacket, hnumbered, -⟩ := of_numbered l.endpoint hc
    have hwrites : l'.sends.tail = l.sends.drop (Use.packets.writes (bodies signals)) := by
      simp [hvalue, Use.packets, hnumbered, hsends]
    have hgiven : Use.packets.given l.sends (bodies signals) =
        [(Fault.ended l'.refusal).map fun _ => data] := by
      simp [hvalue, Use.packets, handed, hnumbered, hpacket, refusal, hsends]
    rw [acknowledge_eq (by rw [hmoves.held]; rfl)]
    refine ⟨fun found hfound => ⟨signals, hmoves.resent _, hwrites, ?_⟩, fun fault hfault => ?_⟩
    · exact hgiven.trans (congrArg ([·]) hfound)
    · rw [(hmoves.resent l'.sends.tail).drawn hwrites, hgiven]
      rw [show ((Fault.ended l'.refusal).map fun _ => data) = .error fault from hfault]
      rfl
  | case5 l protocol rest l' t hb p hc ih =>
    obtain ⟨signals, hmoves, hsends, hvalue⟩ := hbody framed held hb
    obtain ⟨hpacket, hplain, -⟩ := of_foreign l.endpoint hc
    refine .of_moves hmoves ?_ ?_ (ih ?_ hmoves.held) _
    · simp [hvalue, Use.packets, hplain, hsends]
    · simp [hvalue, Use.packets, handed, hplain, hpacket]
    · rw [hmoves.endpoint]
      exact framed

end Link
end MoteLink
