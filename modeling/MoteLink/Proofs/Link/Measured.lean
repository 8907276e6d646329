import Mathlib.Algebra.GroupWithZero.Nat
import MoteLink.Proofs.Link.Chunking
import MoteLink.Proofs.Link.Opening

/-! Packets of a forwarder, each behind a byte that holds its length. However the bytes come, every
request of a read is for what is left of the item being read, so that no byte of the next one is
taken. Main statement: `calls_measured`. -/

namespace MoteLink

namespace Answer

/-- What one request is given, and what it leaves. -/
def request (size : Nat) : List Answer → Bytes × List Answer
  | .chunk data :: rest => (data.take size, Link.leave (data.drop size) rest)
  | answers => ([], answers.tail)

/-- The bytes that the requests in a trace take, and what they leave. -/
def requests : Trace → List Answer → Bytes × List Answer
  | [], answers => ([], answers)
  | .readSocket size :: t, answers =>
    ((request size answers).1 ++ (requests t (request size answers).2).1,
      (requests t (request size answers).2).2)
  | _ :: t, answers => requests t answers

theorem requests_append (t u : Trace) (answers : List Answer) :
    requests (t ++ u) answers =
      ((requests t answers).1 ++ (requests u (requests t answers).2).1,
        (requests u (requests t answers).2).2) := by
  induction t generalizing answers with
  | nil => rfl
  | cons e t ih =>
    cases e <;> simp only [List.cons_append, requests, ih, List.append_assoc]

theorem requests_of_still {t : Trace} (h : ∀ e ∈ t, ¬ e.isRead) (answers : List Answer) :
    requests t answers = ([], answers) := by
  induction t with
  | nil => rfl
  | cons e t ih =>
    have hrest := ih fun e' he' => h e' (List.mem_cons_of_mem _ he')
    cases e with
    | readSocket size => exact absurd rfl (h _ (List.mem_cons_self ..))
    | _ => exact hrest

/-- A trace that reads through items of these sizes, up to the end of the line at most. Each request
is for what is left of one item. -/
structure Itemised (sizes : List Nat) (answers : List Answer) (t : Trace) (rest : List Answer) :
    Prop where
  got : requests t answers = ((bytesOf answers).take sizes.sum, rest)
  left : bytesOf rest = (bytesOf answers).drop sizes.sum
  flowing : Flowing rest
  exact : ∀ (u v : Trace) (n : Nat), t = u ++ .readSocket n :: v →
    ∃ k < sizes.length, (sizes.take k).sum ≤ (requests u answers).1.length ∧
      (requests u answers).1.length + n = (sizes.take (k + 1)).sum

namespace Itemised
variable {sizes more : List Nat} {answers rest last : List Answer} {t u : Trace}

theorem of_still (flowing : Flowing answers) (still : ∀ e ∈ t, ¬ e.isRead) :
    Itemised [] answers t answers := by
  refine ⟨by rw [requests_of_still still]; rfl, rfl, flowing, fun u v n hsplit => ?_⟩
  exact absurd rfl (still (.readSocket n) (hsplit ▸ by simp))

theorem single {size : Nat} (got : requests t answers = ((bytesOf answers).take size, rest))
    (left : bytesOf rest = (bytesOf answers).drop size) (flowing : Flowing rest)
    (exact : ∀ (u v : Trace) (n : Nat), t = u ++ .readSocket n :: v →
      (requests u answers).1.length + n = size) : Itemised [size] answers t rest := by
  refine ⟨by simpa using got, by simpa using left, flowing, fun u v n hsplit => ?_⟩
  have hwhole := exact u v n hsplit
  exact ⟨0, Nat.zero_lt_one, Nat.zero_le _, by simpa using hwhole⟩

theorem trans (h : Itemised sizes answers t rest) (whole : sizes.sum ≤ (bytesOf answers).length)
    (h' : Itemised more rest u last) : Itemised (sizes ++ more) answers (t ++ u) last := by
  refine ⟨?_, ?_, h'.flowing, fun v w n hsplit => ?_⟩
  · rw [requests_append, h.got, h'.got, h.left, List.sum_append, List.take_add]
  · rw [h'.left, h.left, List.drop_drop, List.sum_append]
  · rcases Trace.split_append hsplit with ⟨w', hfirst⟩ | ⟨v', rfl, hrest⟩
    · obtain ⟨k, hk, hlow, hend⟩ := h.exact v w' n hfirst
      refine ⟨k, by rw [List.length_append]; omega, ?_, ?_⟩
      · rwa [List.take_append_of_le_length (by omega)]
      · rwa [List.take_append_of_le_length (by omega)]
    -- the first items are through, so what has been taken of the others comes on top of them
    · obtain ⟨k, hk, hlow, hend⟩ := h'.exact v' w n hrest
      have hgot : (requests (t ++ v') answers).1.length =
          sizes.sum + (requests v' rest).1.length := by
        rw [requests_append, h.got, List.length_append, List.length_take, Nat.min_eq_left whole]
      have hsum : ∀ j, ((sizes ++ more).take (sizes.length + j)).sum =
          sizes.sum + (more.take j).sum := fun j => by
        rw [List.take_length_add_append, List.sum_append]
      refine ⟨sizes.length + k, by rw [List.length_append]; omega, ?_, ?_⟩
      · rw [hsum, hgot]
        omega
      · rw [Nat.add_assoc, hsum, hgot]
        omega

end Itemised
end Answer

namespace Link
open Answer

/-- An exact read on a line that brings bytes until it ends. It asks for what it still wants, over
and over. -/
theorem receiveExactly_requests (size : Nat) {l : Link} {answers : List Answer}
    (held : l.connection = some answers) (flowing : Flowing answers) :
    ∃ rest t, requests t answers = ((bytesOf answers).take size, rest) ∧
      bytesOf rest = (bytesOf answers).drop size ∧ Flowing rest ∧
      (∀ (u v : Trace) (n : Nat), t = u ++ .readSocket n :: v →
        (requests u answers).1.length + n = size) ∧
      t.written = [] ∧
      receiveExactly size l =
        ⟨if size ≤ (bytesOf answers).length then .ok ((bytesOf answers).take size)
          else .error (.closed l.describe), { l with connection := some rest }, t⟩ := by
  -- by the bytes still wanted: every chunk brings one of them at least
  induction size using Nat.strongRecOn generalizing l answers with
  | ind size ih =>
    cases size with
    | zero =>
      have hsame : { l with connection := some answers } = l := by rw [← held]
      refine ⟨answers, [], rfl, rfl, flowing, fun u v n hsplit => ?_, rfl, ?_⟩
      · exact absurd hsplit.symm (by simp)
      · rw [receiveExactly, if_pos rfl, hsame, if_pos (Nat.zero_le _)]
        rfl
    | succ n =>
      cases answers with
      | nil =>
        have hreceive : receive (n + 1) l = ⟨.ok [], l, [.readSocket (n + 1)]⟩ := by
          rw [receive, held]
        have hsame : { l with connection := some [] } = l := by rw [← held]
        refine ⟨[], [.readSocket (n + 1)], rfl, rfl, flowing, fun u v m hsplit => ?_, rfl, ?_⟩
        · obtain ⟨rfl, hm, -⟩ : u = [] ∧ m = n + 1 ∧ v = [] := by
            cases u with
            | nil => simpa [eq_comm] using hsplit
            | cons e u => simp at hsplit
          rw [hm]
          exact Nat.zero_add _
        · rw [receiveExactly, if_neg (Nat.succ_ne_zero n), hreceive, hsame]
          rfl
      | cons answer later =>
        obtain ⟨_ | ⟨b, data⟩, hne, rfl⟩ := flowing answer (List.mem_cons_self ..)
        · exact absurd rfl hne
        have hfront : (data.take n).length ≤ n := List.length_take_le ..
        have hlater : Flowing (leave (data.drop n) later) := fun a ha => by
          rcases mem_leave ha with ⟨hdata, rfl⟩ | hin
          · exact ⟨_, hdata, rfl⟩
          · exact flowing a (List.mem_cons_of_mem _ hin)
        have hrequest : request (n + 1) (.chunk (b :: data) :: later) =
            (b :: data.take n, leave (data.drop n) later) := rfl
        obtain ⟨rest, t, hgot, hleft, hrest, hexact, hwritten, heq⟩ :=
          ih (n - (data.take n).length) (by omega)
            (l := { l with connection := some (leave (data.drop n) later) }) rfl hlater
        have hbytes : bytesOf (.chunk (b :: data) :: later) =
            (b :: data.take n) ++ bytesOf (leave (data.drop n) later) := by
          rw [bytesOf_leave, List.cons_append, ← List.append_assoc, List.take_append_drop]
          rfl
        have hsize : n + 1 = (b :: data.take n).length + (n - (data.take n).length) := by
          rw [List.length_cons]
          omega
        refine ⟨rest, .readSocket (n + 1) :: t, ?_, ?_, hrest, fun u v m hsplit => ?_, hwritten, ?_⟩
        · rw [requests, hrequest, hgot, hbytes, hsize, List.take_length_add_append]
        · rw [hleft, hbytes, hsize, List.drop_length_add_append]
        · cases u with
          | nil =>
            obtain ⟨hm, -⟩ := List.cons.inj hsplit
            rw [← Event.readSocket.inj hm]
            exact Nat.zero_add _
          | cons e u =>
            obtain ⟨rfl, htail⟩ := List.cons.inj hsplit
            have hmore := hexact u v m htail
            rw [requests, hrequest, List.length_append, hsize, Nat.add_assoc, hmore]
        · rw [receiveExactly_chunk n held, heq, hbytes, List.length_append]
          generalize bytesOf (leave (data.drop n) later) = back
          by_cases hmore : n - (data.take n).length ≤ back.length
          · rw [if_pos hmore, if_pos (by omega), hsize, List.take_length_add_append]
            rfl
          · rw [if_neg hmore, if_neg (by omega)]
            rfl

theorem receiveExactly_itemised (size : Nat) {l : Link} {answers : List Answer}
    (held : l.connection = some answers) (flowing : Flowing answers) :
    ∃ rest t, Itemised [size] answers t rest ∧ t.written = [] ∧
      receiveExactly size l =
        ⟨if size ≤ (bytesOf answers).length then .ok ((bytesOf answers).take size)
          else .error (.closed l.describe), { l with connection := some rest }, t⟩ := by
  obtain ⟨rest, t, hgot, hleft, hrest, hexact, hwritten, heq⟩ :=
    receiveExactly_requests size held flowing
  exact ⟨rest, t, .single hgot hleft hrest hexact, hwritten, heq⟩

/-- How a packet goes over the line. -/
def measured (packet : Bytes) : Bytes := UInt8.ofNat packet.length :: packet

theorem readMeasured_whole {l : Link} {answers : List Answer} {packet more : Bytes}
    (held : l.connection = some answers) (flowing : Flowing answers)
    (short : packet.length ≤ 255) (coming : bytesOf answers = measured packet ++ more) :
    ∃ rest t, Itemised [1, packet.length] answers t rest ∧ t.written = [] ∧
      bytesOf rest = more ∧
      readMeasured l = ⟨.ok packet, { l with connection := some rest }, t⟩ := by
  obtain ⟨mid, t, hhead, hwritten, heq⟩ := receiveExactly_itemised 1 held flowing
  have hmid : bytesOf mid = packet ++ more := by
    rw [hhead.left, coming]
    rfl
  obtain ⟨rest, u, hbody, hwritten', heq'⟩ := receiveExactly_itemised packet.length
    (l := { l with connection := some mid }) rfl hhead.flowing
  have hlong : 1 ≤ (bytesOf answers).length := by
    rw [coming]
    exact Nat.succ_le_succ (Nat.zero_le _)
  have hsize : (UInt8.ofNat packet.length).toNat = packet.length :=
    UInt8.toNat_ofNat_of_lt' (Nat.lt_succ_of_le short)
  have hboth := hhead.trans (by simpa using hlong) hbody
  refine ⟨rest, t ++ u, hboth, by rw [Trace.written_append, hwritten, hwritten']; rfl, ?_, ?_⟩
  · rw [hbody.left, hmid]
    simp
  · rw [if_pos hlong, coming] at heq
    rw [hmid, if_pos (by simp), List.take_left] at heq'
    rw [readMeasured, Act.bind_ok heq]
    simp only [measured, List.cons_append, List.take_succ_cons, List.take_zero, hsize, heq']
    rfl

/-- A proper part of a packet, as the line leaves it when it ends. -/
def Torn (rest : Bytes) : Prop :=
  ∃ packet : Bytes, packet.length ≤ 255 ∧ rest <+: measured packet ∧ rest ≠ measured packet

/-- The items of which a torn packet has something at most. -/
def tornSizes : Bytes → List Nat
  | [] => [1]
  | size :: _ => [1, size.toNat]

theorem readMeasured_torn {l : Link} {answers : List Answer} (held : l.connection = some answers)
    (flowing : Flowing answers) (torn : Torn (bytesOf answers)) :
    ∃ rest t, Itemised (tornSizes (bytesOf answers)) answers t rest ∧ t.written = [] ∧
      readMeasured l =
        ⟨.error (.closed l.describe), { l with connection := some rest }, t⟩ := by
  obtain ⟨mid, t, hhead, hwritten, heq⟩ := receiveExactly_itemised 1 held flowing
  obtain ⟨packet, hshort, hfront, hne⟩ := torn
  have hmid := hhead.left
  cases hbytes : bytesOf answers with
  | nil =>
    rw [hbytes] at heq
    refine ⟨mid, t, hhead, hwritten, ?_⟩
    rw [readMeasured, Act.bind_error heq]
  | cons size front =>
    rw [hbytes] at heq hfront hne hmid
    obtain ⟨rfl, hpart⟩ := List.cons_prefix_cons.1 hfront
    have hsize : (UInt8.ofNat packet.length).toNat = packet.length :=
      UInt8.toNat_ofNat_of_lt' (Nat.lt_succ_of_le hshort)
    have hless : front.length < packet.length := by
      rcases Nat.lt_or_ge front.length packet.length with hlt | hge
      · exact hlt
      · exact absurd (congrArg (_ :: ·) (hpart.eq_of_length_le hge)) hne
    obtain ⟨rest, u, hbody, hwritten', heq'⟩ := receiveExactly_itemised packet.length
      (l := { l with connection := some mid }) rfl hhead.flowing
    have hboth := hhead.trans (by simp [hbytes]) hbody
    refine ⟨rest, t ++ u, ?_, by rw [Trace.written_append, hwritten, hwritten']; rfl, ?_⟩
    · rw [tornSizes, hsize]
      exact hboth
    · have hmid' : bytesOf mid = front := hmid
      rw [hmid', if_neg (Nat.not_le.2 hless)] at heq'
      rw [readMeasured, Act.bind_ok heq]
      simp only [List.take_succ_cons, List.take_zero, hsize, heq']
      rfl

/-- The items of a stream of packets. -/
def sizes (packets : List Bytes) : List Nat := packets.flatMap fun packet => [1, packet.length]

theorem calls_whole {packets : List Bytes} {l : Link} {answers : List Answer} {more : Bytes}
    (forwarder : ∃ host port, l.endpoint = .forwarder host port)
    (held : l.connection = some answers) (flowing : Flowing answers)
    (short : ∀ packet ∈ packets, packet.length ≤ 255)
    (coming : bytesOf answers = packets.flatMap measured ++ more) :
    ∃ rest t, Itemised (sizes packets) answers t rest ∧ t.written = [] ∧ bytesOf rest = more ∧
      Act.calls read packets.length l =
        ⟨packets.map .ok, { l with connection := some rest }, t⟩ := by
  induction packets generalizing l answers with
  | nil =>
    have hsame : { l with connection := some answers } = l := by rw [← held]
    exact ⟨answers, [], .of_still flowing (by simp), rfl, coming, by rw [hsame]; rfl⟩
  | cons packet packets ih =>
    have hcoming : bytesOf answers = measured packet ++ (packets.flatMap measured ++ more) := by
      rw [coming, List.flatMap_cons, List.append_assoc]
    obtain ⟨mid, t, hfirst, hwritten, hmid, heq⟩ :=
      readMeasured_whole held flowing (short packet (List.mem_cons_self ..)) hcoming
    obtain ⟨rest, u, hrest, hwritten', hmore, heq'⟩ :=
      ih (l := { l with connection := some mid }) forwarder rfl hfirst.flowing
        (fun packet hp => short packet (List.mem_cons_of_mem _ hp)) hmid
    have hread : read l = readMeasured l := by
      obtain ⟨host, port, hendpoint⟩ := forwarder
      rw [read, hendpoint]
    have hwhole : [1, packet.length].sum ≤ (bytesOf answers).length := by
      rw [hcoming]
      simp [measured]
      omega
    refine ⟨rest, t ++ u, hfirst.trans hwhole hrest, ?_, hmore, ?_⟩
    · rw [Trace.written_append, hwritten, hwritten']
      rfl
    · rw [List.length_cons, Act.calls, hread, heq]
      simp only [heq']
      rfl

theorem sum_sizes (packets : List Bytes) :
    (sizes packets).sum = (packets.map fun packet => 1 + packet.length).sum ∧
      (sizes packets).sum = (packets.flatMap measured).length := by
  induction packets with
  | nil => exact ⟨rfl, rfl⟩
  | cons packet packets ih =>
    obtain ⟨hsum, hlength⟩ := ih
    have hcons : (sizes (packet :: packets)).sum = 1 + packet.length + (sizes packets).sum := by
      simp [sizes, Nat.add_assoc]
    refine ⟨?_, ?_⟩
    · rw [hcons, hsum, List.map_cons, List.sum_cons]
    · rw [hcons, hlength, List.flatMap_cons, List.length_append, measured, List.length_cons]
      omega

theorem connect_itemised {l₀ : Link} {host : String} {port : Int} {chunks : List Bytes}
    {later : Recording} {other : UInt8} {more : Bytes}
    (forwarder : l₀.endpoint = .forwarder host port)
    (recorded : l₀.recording = .accepted (chunks.map .chunk) :: later) (pieces : [] ∉ chunks)
    (stream : chunks.flatten = [0x55, other] ++ more) :
    ∃ rest t, Itemised [2] (chunks.map .chunk) t rest ∧ t.written = [version] ∧
      bytesOf rest = more ∧
      connect l₀ =
        ⟨.ok (), { l₀ with recording := later, connection := some rest, sends := [] }, t⟩ := by
  obtain ⟨endpoint, recording, connection, sends, receiver, pending, stopping⟩ := l₀
  obtain rfl : endpoint = .forwarder host port := forwarder
  obtain rfl : recording = .accepted (chunks.map .chunk) :: later := recorded
  obtain ⟨rest, t, hitem, hwritten, heq⟩ := receiveExactly_itemised 2
    (l := ⟨.forwarder host port, later, some (chunks.map .chunk), [], receiver, pending, stopping⟩)
    rfl (flowing_chunks pieces)
  have hbytes : bytesOf (chunks.map .chunk) = [0x55, other] ++ more :=
    (bytesOf_chunks chunks).trans stream
  rw [hbytes, if_pos (by simp)] at heq
  have hquiet : ∀ e ∈ [Event.dialHost host port, .writeSocket version], ¬ e.isRead := by
    simp [Event.isRead]
  have hdialled : Itemised [] (chunks.map .chunk) [.dialHost host port, .writeSocket version]
      (chunks.map .chunk) := .of_still (flowing_chunks pieces) hquiet
  refine ⟨rest, _, hdialled.trans (Nat.zero_le _) hitem, ?_, ?_, ?_⟩
  · rw [Trace.written_append, hwritten]
    rfl
  · rw [hitem.left, hbytes]
    rfl
  · have hconnect : connect ⟨.forwarder host port, .accepted (chunks.map .chunk) :: later,
          connection, sends, receiver, pending, stopping⟩ =
        (greet ⟨.forwarder host port, later, some (chunks.map .chunk), [], receiver, pending,
          stopping⟩).after [.dialHost host port] := rfl
    have hwrite : write version
          ⟨.forwarder host port, later, some (chunks.map .chunk), [], receiver, pending, stopping⟩ =
        ⟨.ok (), ⟨.forwarder host port, later, some (chunks.map .chunk), [], receiver, pending,
          stopping⟩, [.writeSocket version]⟩ := rfl
    have hversion : ¬ (([0x55, other] ++ more).take 2).take 1 ≠ version.take 1 := fun hne => hne rfl
    rw [hconnect, greet, Act.bind_ok hwrite, Act.bind_ok heq, if_neg hversion]
    simp [Outcome.after]

/-- A forwarder's packets come one by one, however the bytes are cut, and when the line ends within
one the call for it faults. After each packet, what was taken is the version and the packets up to
there, and what is asked for is always what is left of one item: the version, a length, or a
packet. -/
theorem calls_measured {l₀ : Link} {host : String} {port : Int} {chunks : List Bytes}
    {later : Recording} {other : UInt8} {packets : List Bytes} {rest : Bytes}
    (forwarder : l₀.endpoint = .forwarder host port)
    (recorded : l₀.recording = .accepted (chunks.map .chunk) :: later) (pieces : [] ∉ chunks)
    (short : ∀ packet ∈ packets, packet.length ≤ 255) (torn : Torn rest)
    (stream : chunks.flatten = [0x55, other] ++ (packets.flatMap measured ++ rest)) :
    ∃ l t, connect l₀ = ⟨.ok (), l, t⟩ ∧ t.written = [[0x55, 0x20]] ∧
      (∀ k ≤ packets.length,
        let c := Act.calls read k l
        let taken := [0x55, other] ++ (packets.take k).flatMap measured
        c.results = (packets.take k).map .ok ∧
          requests (t ++ c.trace) (chunks.map .chunk) = (taken, c.state.script) ∧
          taken.length = 2 + ((packets.take k).map fun packet => 1 + packet.length).sum) ∧
      let c := Act.calls read (packets.length + 1) l
      let items := 2 :: (sizes packets ++ tornSizes rest)
      c.results = packets.map .ok ++ [.error (.closed l₀.describe)] ∧
        (Fault.closed l₀.describe).label = "ConnectionError" ∧
        c.trace.written = [] ∧
        ∀ (u v : Trace) (n : Nat), t ++ c.trace = u ++ .readSocket n :: v →
          ∃ k < items.length,
            (items.take k).sum ≤ (requests u (chunks.map .chunk)).1.length ∧
              (requests u (chunks.map .chunk)).1.length + n = (items.take (k + 1)).sum := by
  obtain ⟨left, t, hopening, hwritten, hleft, hconnect⟩ :=
    connect_itemised forwarder recorded pieces stream
  have hbytes : bytesOf (chunks.map .chunk) = [0x55, other] ++ (packets.flatMap measured ++ rest) :=
    (bytesOf_chunks chunks).trans stream
  have hopened : [2].sum ≤ (bytesOf (chunks.map .chunk)).length := by
    rw [hbytes]
    simp
  refine ⟨_, t, hconnect, hwritten, fun k hk => ?_, ?_⟩
  · have hcoming : bytesOf left =
        (packets.take k).flatMap measured ++ ((packets.drop k).flatMap measured ++ rest) := by
      rw [hleft, ← List.append_assoc, ← List.flatMap_append, List.take_append_drop]
    obtain ⟨mid, u, hitem, -, -, hcalls⟩ :=
      calls_whole (l := { l₀ with recording := later, connection := some left, sends := [] })
        ⟨host, port, forwarder⟩ rfl hopening.flowing
        (fun packet hp => short packet (List.mem_of_mem_take hp)) hcoming
    rw [List.length_take, Nat.min_eq_left hk] at hcalls
    rw [hcalls]
    have hgot := (hopening.trans hopened hitem).got
    obtain ⟨hsum, hlength⟩ := sum_sizes (packets.take k)
    have hlong : ([0x55, other] ++ (packets.take k).flatMap measured).length =
        ([2] ++ sizes (packets.take k)).sum := by
      rw [List.length_append, List.sum_append, hlength]
      rfl
    refine ⟨rfl, ?_, by rw [hlong, List.sum_append, hsum]; rfl⟩
    rw [hgot, ← hlong, hbytes, ← hleft, hcoming, ← List.append_assoc,
      List.take_left]
    rfl
  · obtain ⟨mid, u, hitem, hsilent, hmid, hcalls⟩ :=
      calls_whole (l := { l₀ with recording := later, connection := some left, sends := [] })
        ⟨host, port, forwarder⟩ rfl hopening.flowing short hleft
    obtain ⟨last, w, hlast, hsilent', heq⟩ := readMeasured_torn
      (l := { l₀ with recording := later, connection := some mid, sends := [] }) rfl hitem.flowing
      (hmid ▸ torn)
    have hread : read { l₀ with recording := later, connection := some mid, sends := [] } =
        readMeasured { l₀ with recording := later, connection := some mid, sends := [] } := by
      rw [read, forwarder]
    have hwhole : (sizes packets).sum ≤ (bytesOf left).length := by
      rw [hleft, (sum_sizes packets).2, List.length_append]
      exact Nat.le_add_right ..
    have hall := hopening.trans hopened (hitem.trans hwhole (hmid ▸ hlast))
    rw [Act.calls_succ, hcalls, hread, heq]
    refine ⟨rfl, rfl, ?_, hall.exact⟩
    rw [Trace.written_append, hsilent, hsilent']
    rfl

/-- An empty packet and another, cut anywhere, and a line that ends in a third. -/
theorem calls_measured_cut :
    let chunks : List Bytes := [[0x55], [0x21, 0, 2], [7], [8, 3, 9]]
    let l₀ : Link :=
      { endpoint := .forwarder "host" 9002, recording := [.accepted (chunks.map .chunk)] }
    ∃ l t, connect l₀ = ⟨.ok (), l, t⟩ ∧
      (Act.calls read 3 l).results = [.ok [], .ok [7, 8], .error (.closed l₀.describe)] ∧
      t.written = [[0x55, 0x20]] ∧ (Act.calls read 3 l).trace.written = [] := by
  intro chunks l₀
  have htorn : Torn [3, 9] := ⟨[9, 10, 11], by decide, by decide, by decide⟩
  have hshort : ∀ packet ∈ ([[], [7, 8]] : List Bytes), packet.length ≤ 255 := by simp
  have hforwarder : l₀.endpoint = .forwarder "host" 9002 := rfl
  have hstream : chunks.flatten =
      [0x55, 0x21] ++ (([[], [7, 8]] : List Bytes).flatMap measured ++ [3, 9]) := rfl
  obtain ⟨l, t, hconnect, hgreeting, -, hresults, -, hsilent, -⟩ :=
    calls_measured hforwarder rfl (by decide) hshort htorn hstream
  exact ⟨l, t, hconnect, hresults, hgreeting, hsilent⟩

end Link
end MoteLink
