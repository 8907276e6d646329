import MoteLink.Link.Forwarder
import MoteLink.Proofs.Frame.Run
import MoteLink.Proofs.Trace

/-! Links that carry a stream of bytes, as streams. What a link still has to give is the bytes that
wait in it and those on the line; reading moves its receiver along them, whatever pieces they come
in. Main statement: `nextBody_drawn`. -/

namespace MoteLink

namespace Answer

def bytes : Answer → Bytes
  | .chunk data => data
  | _ => []

def bytesOf (answers : List Answer) : Bytes := answers.flatMap bytes

/-- Nobody asks for a stop while the connection is read. -/
def Steady (answers : List Answer) : Prop := ∀ fault, .stops fault ∉ answers

/-- Bytes come at every read, until there are no more. -/
def Flowing (answers : List Answer) : Prop := ∀ a ∈ answers, ∃ data, data ≠ [] ∧ a = .chunk data

theorem flowing_chunks {chunks : List Bytes} (h : [] ∉ chunks) : Flowing (chunks.map .chunk) := by
  intro a ha
  obtain ⟨data, hdata, rfl⟩ := List.mem_map.1 ha
  exact ⟨data, fun e => h (e ▸ hdata), rfl⟩

theorem bytesOf_chunks (chunks : List Bytes) : bytesOf (chunks.map .chunk) = chunks.flatten := by
  rw [bytesOf, List.flatMap_map]
  exact List.flatMap_id'

end Answer

/-- Carries frames and not whole packets. -/
def Endpoint.Framed : Endpoint → Prop
  | .forwarder .. => False
  | _ => True

/-- The fault of a read when the other side has gone. -/
def Endpoint.ending (e : Endpoint) : Fault :=
  match e with
  | .serial .. => .deviceGone
  | _ => .closed e.describe

namespace Link
open Answer Signal

def script (l : Link) : List Answer := l.connection.getD []

def coming (l : Link) : Bytes := l.pending ++ bytesOf l.script

/-- A link that frames can be read from. -/
structure Open (l : Link) : Prop where
  framed : l.endpoint.Framed
  connected : l.connection = some l.script
  steady : Steady l.script

theorem Open.held {l : Link} (h : l.Open) : l.connection.isSome := by
  rw [h.connected]
  rfl

/-- What a read left of a chunk stands in front of the next answers. -/
def leave (data : Bytes) (rest : List Answer) : List Answer :=
  if data = [] then rest else .chunk data :: rest

/-- What one read brings of what a connection answers, and what it leaves. A socket gives at most
4096 bytes at a time, and no bytes at all mean its end. -/
def serve (e : Endpoint) : List Answer → Except Fault Bytes × List Answer
  | [] => (.error e.ending, [])
  | .chunk data :: rest =>
    match e with
    | .serial .. => (.ok data, rest)
    | _ =>
      (if data = [] then .error e.ending else .ok (data.take 4096), leave (data.drop 4096) rest)
  | .fails fault :: rest | .stops fault :: rest => (.error fault, rest)

theorem unread_eq (data : Bytes) (rest : List Answer) (l : Link) :
    unread data { l with connection := some rest } =
      { l with connection := some (leave data rest) } := by
  cases data <;> simp [unread, leave]

theorem readPort_chunk {l : Link} {data : Bytes} {rest : List Answer}
    (h : l.connection = some (.chunk data :: rest)) :
    readPort l =
      ⟨.ok data, { l with connection := some rest }, [.readPort (max 1 data.length)]⟩ := by
  have hdrop : data.drop (max 1 data.length) = [] :=
    List.drop_eq_nil_of_le (Nat.le_max_right ..)
  have htake : data.take (max 1 data.length) = data :=
    List.take_of_length_le (Nat.le_max_right ..)
  simp [readPort, h, take, waiting, unread_eq, leave, hdrop, htake, Outcome.after]

theorem receive_chunk {l : Link} {data : Bytes} {rest : List Answer} (size : Nat)
    (h : l.connection = some (.chunk data :: rest)) :
    receive size l =
      ⟨.ok (data.take size), { l with connection := some (leave (data.drop size) rest) },
        [.readSocket size]⟩ := by
  simp [receive, h, take, unread_eq, Outcome.after]

theorem fetch_eq {l : Link} (h : l.Open) :
    ∃ read : Event, read.isRead ∧
      fetch l =
        ⟨(serve l.endpoint l.script).1,
          { l with connection := some (serve l.endpoint l.script).2 }, [read]⟩ := by
  obtain ⟨endpoint, recording, connection, sends, receiver, pending, stopping⟩ := l
  obtain ⟨framed, connected, steady⟩ := h
  obtain ⟨answers, rfl⟩ : ∃ answers, connection = some answers := ⟨_, connected⟩
  cases endpoint with
  | serial device baud =>
    cases answers with
    | nil => exact ⟨.readPort 1, rfl, rfl⟩
    | cons a rest =>
      cases a with
      | chunk data =>
        refine ⟨.readPort (max 1 data.length), rfl, ?_⟩
        rw [fetch, readPort_chunk rfl]
        rfl
      | fails fault => exact ⟨.readPort 1, rfl, rfl⟩
      | stops fault => exact absurd (List.mem_cons_self ..) (steady fault)
  | network host port =>
    cases answers with
    | nil => exact ⟨.readSocket 4096, rfl, rfl⟩
    | cons a rest =>
      cases a with
      | chunk data =>
        refine ⟨.readSocket 4096, rfl, ?_⟩
        rw [fetch, receiveSome, Act.bind_ok (receive_chunk 4096 rfl)]
        cases data <;> rfl
      | fails fault => exact ⟨.readSocket 4096, rfl, rfl⟩
      | stops fault => exact absurd (List.mem_cons_self ..) (steady fault)
  | forwarder host port => exact framed.elim

def sent (e : Endpoint) (data : Bytes) : Event :=
  match e with
  | .serial .. => .writePort data
  | _ => .writeSocket data

theorem write_eq {l : Link} (held : l.connection.isSome) (data : Bytes) :
    write data l =
      ⟨Fault.ended l.refusal, { l with sends := l.sends.tail }, [sent l.endpoint data]⟩ := by
  obtain ⟨endpoint, recording, connection, sends, receiver, pending, stopping⟩ := l
  obtain ⟨answers, rfl⟩ : ∃ answers, connection = some answers := Option.isSome_iff_exists.1 held
  cases endpoint <;> rfl

theorem effects_read {read : Event} (h : read.isRead) : Trace.effects [read] = [] := by
  simp [Trace.effects, h]

theorem connect_eq {l : Link} (framed : l.endpoint.Framed) :
    connect l = (dial { l with receiver := {}, pending := [] }).after [dialling l.endpoint] := by
  obtain ⟨endpoint, recording, connection, sends, receiver, pending, stopping⟩ := l
  cases endpoint with
  | serial device baud | network host port =>
    cases recording with
    | nil => rfl
    | cons d rest => cases d <;> rfl
  | forwarder host port => exact framed.elim

theorem read_eq {l : Link} (framed : l.endpoint.Framed) : read l = nextPacket l := by
  obtain ⟨endpoint, recording, connection, sends, receiver, pending, stopping⟩ := l
  cases endpoint with
  | serial device baud | network host port => rfl
  | forwarder host port => exact framed.elim

theorem mem_leave {data : Bytes} {rest : List Answer} {a : Answer} (h : a ∈ leave data rest) :
    data ≠ [] ∧ a = .chunk data ∨ a ∈ rest := by
  unfold leave at h
  split at h
  · exact .inr h
  · rename_i hne
    rcases List.mem_cons.1 h with rfl | hr
    · exact .inl ⟨hne, rfl⟩
    · exact .inr hr

theorem bytesOf_leave (data : Bytes) (rest : List Answer) :
    bytesOf (leave data rest) = data ++ bytesOf rest := by
  unfold leave
  split
  · rename_i h
    simp [h]
  · rfl

theorem mem_serve {e : Endpoint} {answers : List Answer} {a : Answer}
    (h : a ∈ (serve e answers).2) : a ∈ answers ∨ ∃ data, data ≠ [] ∧ a = .chunk data := by
  cases answers with
  | nil => exact .inl h
  | cons first rest =>
    cases first with
    | chunk data =>
      cases e with
      | serial device baud => exact .inl (List.mem_cons_of_mem _ h)
      | network host port | forwarder host port =>
        rcases mem_leave h with hd | hr
        · exact .inr ⟨_, hd⟩
        · exact .inl (List.mem_cons_of_mem _ hr)
    | fails fault => exact .inl (List.mem_cons_of_mem _ h)
    | stops fault => exact .inl (List.mem_cons_of_mem _ h)

theorem bytesOf_serve (e : Endpoint) (answers : List Answer) :
    bytesOf answers = ((serve e answers).1.toOption.getD []) ++ bytesOf (serve e answers).2 := by
  cases answers with
  | nil => rfl
  | cons a rest =>
    cases a with
    | chunk data =>
      have hleave : bytesOf (.chunk data :: rest) =
          data.take 4096 ++ bytesOf (leave (data.drop 4096) rest) := by
        rw [bytesOf_leave, ← List.append_assoc, List.take_append_drop]
        rfl
      have hsocket : (if data = [] then (.error e.ending : Except Fault Bytes)
          else .ok (data.take 4096)).toOption.getD [] = data.take 4096 := by
        by_cases hd : data = [] <;> simp [hd, Except.toOption]
      cases e with
      | serial device baud => rfl
      | network host port => rw [hleave]; exact congrArg (· ++ _) hsocket.symm
      | forwarder host port => rw [hleave]; exact congrArg (· ++ _) hsocket.symm
    | fails fault => rfl
    | stops fault => rfl

theorem weights_leave (data : Bytes) (rest : List Answer) :
    weights (leave data rest) ≤ 2 * data.length + 1 + weights rest := by
  unfold leave
  split <;> simp [weights, Answer.weight]

theorem weights_serve (e : Endpoint) (answers : List Answer) :
    weights (serve e answers).2 + ((serve e answers).1.toOption.getD []).length ≤
      weights answers := by
  cases answers with
  | nil => simp [serve, weights, Except.toOption]
  | cons a rest =>
    cases a with
    | chunk data =>
      have hleave := weights_leave (data.drop 4096) rest
      have hcut := congrArg List.length (List.take_append_drop 4096 data)
      rw [List.length_append] at hcut
      cases e with
      | serial device baud =>
        simp only [serve, Except.toOption, Option.getD_some, weights, Answer.weight]
        omega
      | network host port | forwarder host port =>
        by_cases hd : data = []
        · simp [serve, hd, leave, weights, Except.toOption]
        · simp only [serve, hd, if_false, Except.toOption, Option.getD_some, weights, Answer.weight]
          omega
    | fails fault => simp [serve, weights, Except.toOption]
    | stops fault => simp [serve, weights, Except.toOption]

/-- A read that faults takes an answer off the line, unless there was none. -/
theorem serve_error {e : Endpoint} {answers : List Answer} {fault : Fault} (h : Steady answers)
    (hs : (serve e answers).1 = .error fault) :
    ((serve e answers).2 = [] ∨ weights (serve e answers).2 < weights answers) ∧
      (fault = e.ending ∨ .fails fault ∈ answers) := by
  cases answers with
  | nil =>
    obtain rfl : e.ending = fault := Except.error.inj hs
    exact ⟨.inl rfl, .inl rfl⟩
  | cons a rest =>
    cases a with
    | chunk data =>
      cases e with
      | serial device baud => simp [serve] at hs
      | network host port | forwarder host port =>
        by_cases hd : data = []
        · subst hd
          obtain rfl : _ = fault := Except.error.inj hs
          exact ⟨.inr (by simp [serve, leave, weights, Answer.weight]), .inl rfl⟩
        · simp [serve, hd] at hs
    | fails f =>
      obtain rfl : f = fault := Except.error.inj hs
      exact ⟨.inr (by simp [serve, weights, Answer.weight]), .inr (List.mem_cons_self ..)⟩
    | stops f => exact absurd (List.mem_cons_self ..) (h f)

theorem serve_flowing {e : Endpoint} {answers : List Answer} {fault : Fault} (h : Flowing answers)
    (hs : (serve e answers).1 = .error fault) : (serve e answers).2 = [] ∧ fault = e.ending := by
  cases answers with
  | nil => exact ⟨rfl, (Except.error.inj hs).symm⟩
  | cons a rest =>
    obtain ⟨data, hne, rfl⟩ := h a (List.mem_cons_self ..)
    cases e with
    | serial device baud => simp [serve] at hs
    | network host port | forwarder host port => simp [serve, hne] at hs

/-- `l'` is `l` after its receiver took in some of the bytes to come, with these signals. -/
structure Advanced (l : Link) (signals : List Signal) (l' : Link) : Prop where
  endpoint : l'.endpoint = l.endpoint
  recording : l'.recording = l.recording
  stopping : l'.stopping = l.stopping
  stays : l'.Open
  weight : l'.weight ≤ l.weight
  fails : ∀ fault, .fails fault ∈ l'.script → .fails fault ∈ l.script
  flowing : Flowing l.script → Flowing l'.script
  taken : ∃ used, l.coming = used ++ l'.coming ∧ l.receiver.run used = (l'.receiver, signals)

theorem Advanced.trans {l l' l'' : Link} {a b : List Signal} (h : Advanced l a l')
    (h' : Advanced l' b l'') : Advanced l (a ++ b) l'' := by
  obtain ⟨used, hcoming, hrun⟩ := h.taken
  obtain ⟨used', hcoming', hrun'⟩ := h'.taken
  refine ⟨h'.endpoint.trans h.endpoint, h'.recording.trans h.recording,
    h'.stopping.trans h.stopping, h'.stays, Nat.le_trans h'.weight h.weight,
    fun fault hm => h.fails fault (h'.fails fault hm),
    fun hf => h'.flowing (h.flowing hf), used ++ used', ?_, ?_⟩
  · rw [hcoming, hcoming', List.append_assoc]
  · rw [Receiver.run_append, hrun, hrun']

/-- What comes of writes has no part in what is read. -/
theorem Advanced.resent {l l' : Link} {signals : List Signal} (h : Advanced l signals l')
    (sends : List (Option Fault)) : Advanced l signals { l' with sends } :=
  ⟨h.endpoint, h.recording, h.stopping, ⟨h.stays.framed, h.stays.connected, h.stays.steady⟩,
    h.weight, h.fails, h.flowing, h.taken⟩

/-- The signals that a link will still give. -/
def ahead (l : Link) : List Signal := (l.receiver.run l.coming).2

theorem Advanced.ahead {l l' : Link} {signals : List Signal} (h : Advanced l signals l') :
    l.ahead = signals ++ l'.ahead := by
  obtain ⟨used, hcoming, hrun⟩ := h.taken
  rw [Link.ahead, hcoming, Receiver.run_append, hrun]
  rfl

theorem ahead_of_ended {l : Link} (hp : l.pending = []) (hs : l.script = []) : l.ahead = [] := by
  rw [ahead, coming, hp, hs]
  rfl

theorem scan_run (r : Receiver) (data : Bytes) :
    ∃ used quiet, data = used ++ (r.scan data).rest ∧
      r.run used =
        ((r.scan data).receiver, quiet ++ (r.scan data).body.toList.map .body) ∧
      bodies quiet = [] ∧ drops quiet = (r.scan data).drops ∧
      ((r.scan data).body = none → (r.scan data).rest = []) := by
  induction data generalizing r with
  | nil => exact ⟨[], [], rfl, rfl, rfl, rfl, fun _ => rfl⟩
  | cons b data ih =>
    rw [Receiver.scan]
    split
    · rename_i r' body hstep
      exact ⟨[b], [], rfl, by simp [Receiver.run, hstep], rfl, rfl, fun h => by simp at h⟩
    · rename_i r' hstep
      obtain ⟨used, quiet, hdata, hrun, hbodies, hdrops, hrest⟩ := ih r'
      exact ⟨b :: used, .quiet :: quiet, by simp [← hdata], by simp [Receiver.run, hstep, hrun],
        hbodies, hdrops, hrest⟩
    · rename_i r' cause hstep
      obtain ⟨used, quiet, hdata, hrun, hbodies, hdrops, hrest⟩ := ih r'
      exact ⟨b :: used, .dropped cause :: quiet, by simp [← hdata],
        by simp [Receiver.run, hstep, hrun], hbodies, congrArg (cause :: ·) hdrops, hrest⟩

/-- What is said of the content that was dropped. -/
def report (signals : List Signal) : Trace :=
  (drops signals).map fun cause => .notice (.dropped cause)

theorem report_append (a b : List Signal) : report (a ++ b) = report a ++ report b := by
  simp [report, drops_append]

theorem effects_report (signals : List Signal) : (report signals).effects = report signals := by
  simp [report, Trace.effects, Event.isRead]

theorem advanced_advance {l : Link} (h : l.Open) :
    ∃ quiet, bodies quiet = [] ∧ l.advanceTrace = report quiet ∧
      Advanced l (quiet ++ (l.receiver.scan l.pending).body.toList.map .body) l.advance ∧
      ((l.receiver.scan l.pending).body = none → l.advance.pending = []) := by
  obtain ⟨used, quiet, hdata, hrun, hbodies, hdrops, hrest⟩ := scan_run l.receiver l.pending
  refine ⟨quiet, hbodies, by rw [advanceTrace, report, hdrops],
    ⟨rfl, rfl, rfl, ⟨h.framed, h.connected, h.steady⟩, weight_advance l, fun _ hm => hm, id, used,
      ?_, hrun⟩, hrest⟩
  conv => lhs; rw [coming, hdata, List.append_assoc]
  rfl

/-- How reading ends when it faults: all that came was used, and unless nothing is left on the line
the fault has taken something off it. -/
structure Stalled (l : Link) (fault : Fault) (l' : Link) : Prop where
  empty : l'.pending = []
  lighter : l'.script = [] ∨ l'.weight < l.weight
  cause : fault = l.endpoint.ending ∨ .fails fault ∈ l.script
  ended : Flowing l.script → l'.script = [] ∧ fault = l.endpoint.ending

theorem Stalled.of_advanced {l l' l'' : Link} {signals : List Signal} {fault : Fault}
    (h : Advanced l signals l') (hs : Stalled l' fault l'') : Stalled l fault l'' := by
  refine ⟨hs.empty, ?_, ?_, fun hf => ?_⟩
  · exact hs.lighter.imp id fun hlt => Nat.lt_of_lt_of_le hlt h.weight
  · rw [← h.endpoint]
    exact hs.cause.imp id (h.fails fault)
  · rw [← h.endpoint]
    exact hs.ended (h.flowing hf)

theorem advanced_serve {l : Link} (h : l.Open) (hp : l.pending = []) :
    Advanced l []
      { l with
        connection := some (serve l.endpoint l.script).2
        pending := (serve l.endpoint l.script).1.toOption.getD [] } := by
  have hmem := fun a => @mem_serve l.endpoint l.script a
  refine ⟨rfl, rfl, rfl, ⟨h.framed, rfl, fun fault hm => ?_⟩, ?_, fun fault hm => ?_,
    fun hflow a hm => ?_, [], ?_, rfl⟩
  · rcases hmem _ hm with hin | ⟨data, _, he⟩
    · exact h.steady fault hin
    · simp at he
  · have hw := weights_serve l.endpoint l.script
    have hscript : l.connection.getD [] = l.script := rfl
    simp only [Link.weight, Option.getD_some, hscript]
    omega
  · rcases hmem _ hm with hin | ⟨data, _, he⟩
    · exact hin
    · simp at he
  · rcases hmem _ hm with hin | hchunk
    · exact hflow a hin
    · exact hchunk
  · rw [coming, hp, List.nil_append, List.nil_append, bytesOf_serve l.endpoint l.script]
    rfl

theorem advanced_fetch {l l' : Link} {data : Bytes} {t : Trace} (h : l.Open) (hp : l.pending = [])
    (hf : fetch l = ⟨.ok data, l', t⟩) :
    t.effects = [] ∧ l'.sends = l.sends ∧ Advanced l [] { l' with pending := data } := by
  obtain ⟨read, hread, heq⟩ := fetch_eq h
  rw [hf] at heq
  obtain ⟨hdata, rfl, rfl⟩ := Outcome.mk.inj heq
  have hadv := advanced_serve h hp
  rw [← hdata] at hadv
  exact ⟨effects_read hread, rfl, hadv⟩

theorem stalled_fetch {l l' : Link} {fault : Fault} {t : Trace} (h : l.Open) (hp : l.pending = [])
    (hf : fetch l = ⟨.error fault, l', t⟩) :
    t.effects = [] ∧ l'.sends = l.sends ∧ Advanced l [] l' ∧ Stalled l fault l' := by
  obtain ⟨read, hread, heq⟩ := fetch_eq h
  rw [hf] at heq
  obtain ⟨hfault, rfl, rfl⟩ := Outcome.mk.inj heq
  obtain ⟨hlighter, hcause⟩ := serve_error h.steady hfault.symm
  have hadv := advanced_serve h hp
  rw [← hfault, show (Except.error fault : Except Fault Bytes).toOption.getD [] = l.pending from
    hp.symm] at hadv
  refine ⟨effects_read hread, rfl, hadv, hp, ?_, hcause,
    fun hflow => serve_flowing hflow hfault.symm⟩
  refine hlighter.imp id fun hlt => ?_
  have hscript : l.connection.getD [] = l.script := rfl
  simp only [Link.weight, Option.getD_some, hscript]
  omega

/-- What reading up to a body brings about. -/
structure Drawn (l : Link) (o : Outcome Link Bytes) : Prop where
  advanced : ∃ quiet, bodies quiet = [] ∧ o.trace.effects = report quiet ∧
    Advanced l (quiet ++ o.result.toOption.toList.map .body) o.state
  sends : o.state.sends = l.sends
  lighter : ∀ body, o.result = .ok body → o.state.weight < l.weight
  stalled : ∀ fault, o.result = .error fault → Stalled l fault o.state

theorem nextBody_drawn {l : Link} (h : l.Open) : Drawn l (nextBody l) := by
  fun_induction nextBody l with
  | case1 l body hb =>
    obtain ⟨quiet, hquiet, hreport, hadv, _⟩ := advanced_advance h
    rw [hb] at hadv
    refine ⟨⟨quiet, hquiet, by rw [hreport, effects_report], hadv⟩, rfl, ?_, ?_⟩
    · exact fun _ _ => weight_advance_body hb
    · exact fun _ he => by simp at he
  | case2 l hb fault l' t hf =>
    obtain ⟨quiet, hquiet, hreport, hadv, hempty⟩ := advanced_advance h
    rw [hb] at hadv
    obtain ⟨ht, hsends, hadv', hstall⟩ := stalled_fetch hadv.stays (hempty hb) hf
    refine ⟨⟨quiet, hquiet, ?_, by simpa [Except.toOption] using hadv.trans hadv'⟩, hsends, ?_, ?_⟩
    · rw [Trace.effects_append, hreport, effects_report, ht, List.append_nil]
    · exact fun _ he => by simp at he
    · intro fault' he
      obtain rfl := Except.error.inj he
      exact hstall.of_advanced hadv
  | case3 l hb data l' t hf ih =>
    obtain ⟨quiet, hquiet, hreport, hadv, hempty⟩ := advanced_advance h
    rw [hb] at hadv
    obtain ⟨ht, hsends, hadv'⟩ := advanced_fetch hadv.stays (hempty hb) hf
    -- the scan left nothing pending, so what was fetched comes right behind what was used
    have hall := hadv.trans hadv'
    obtain ⟨⟨quiet', hquiet', hreport', hadv''⟩, hsends', hlighter, hstalled⟩ := ih hall.stays
    refine ⟨⟨quiet ++ quiet', ?_, ?_, ?_⟩, hsends'.trans hsends, ?_, ?_⟩
    · rw [bodies_append, hquiet, hquiet']
      rfl
    · simp only [Outcome.after, Trace.effects_append, hreport, effects_report, ht, hreport',
        List.append_nil, report_append]
    · simpa [Outcome.after] using hall.trans hadv''
    · exact fun body hbody => Nat.lt_of_lt_of_le (hlighter body hbody) hall.weight
    · exact fun fault hfault => (hstalled fault hfault).of_advanced hall

end Link
end MoteLink
