import MoteLink.Link.Basic

/-! Frames and packets read from links that carry a stream of bytes. A body tells by its first byte
whether it holds a packet and whether the packet wants an acknowledgement. -/

namespace MoteLink

inductive Content where
  | packet (data : Bytes)
  | numbered (sequence : UInt8) (data : Bytes)
  | foreign (protocol : UInt8)
  deriving DecidableEq, Repr

namespace Content

def plainPacket : UInt8 := 0x45
def numberedPacket : UInt8 := 0x44

/-- A numbered packet without a number is foreign. -/
def of (protocol : UInt8) (rest : Bytes) : Content :=
  if protocol = plainPacket then .packet rest
  else if protocol = numberedPacket then
    match rest with
    | [] => .foreign protocol
    | sequence :: data => .numbered sequence data
  else .foreign protocol

end Content

theorem Receiver.length_scan_rest (r : Receiver) (data : Bytes) :
    (r.scan data).rest.length ≤ data.length ∧
      ((r.scan data).body.isSome → (r.scan data).rest.length < data.length) := by
  induction data generalizing r with
  | nil => simp [scan]
  | cons b rest ih =>
    simp only [scan]
    split
    · simp
    · rename_i r' h
      obtain ⟨h₁, h₂⟩ := ih r'
      exact ⟨by simp; omega, fun h => by have := h₂ h; simp; omega⟩
    · rename_i r' cause h
      obtain ⟨h₁, h₂⟩ := ih r'
      exact ⟨by simp; omega, fun h => by have := h₂ h; simp; omega⟩

namespace Link

def fetch (l : Link) : Outcome Link Bytes :=
  match l.endpoint with
  | .serial .. => readPort l
  | .network .. => receiveSome l
  | .forwarder .. => Act.fail (.noOperation l.endpoint.label "read_bytes") l

/-- The link after its pending bytes went through the receiver, up to the first body. -/
def advance (l : Link) : Link :=
  let s := l.receiver.scan l.pending
  { l with receiver := s.receiver, pending := s.rest }

def advanceTrace (l : Link) : Trace :=
  (l.receiver.scan l.pending).drops.map fun cause => .notice (.dropped cause)

theorem weight_fetch {l l' : Link} {data : Bytes} {t : Trace}
    (h : fetch l = ⟨.ok data, l', t⟩) : l'.weight + data.length < l.weight := by
  unfold fetch at h
  split at h
  · exact weight_readPort h
  · exact weight_receiveSome h
  · simp [Act.fail] at h

theorem weight_advance (l : Link) : l.advance.weight ≤ l.weight := by
  have := (l.receiver.length_scan_rest l.pending).1
  simp only [advance, weight]
  omega

theorem weight_advance_body {l : Link} {body : Bytes}
    (h : (l.receiver.scan l.pending).body = some body) : l.advance.weight < l.weight := by
  have := (l.receiver.length_scan_rest l.pending).2 (by simp [h])
  simp only [advance, weight]
  omega

/-- Reads until a body is complete. What came behind it stays pending; a read that fails loses
nothing that came before. -/
def nextBody (l : Link) : Outcome Link Bytes :=
  match (l.receiver.scan l.pending).body with
  | some body => ⟨.ok body, l.advance, l.advanceTrace⟩
  | none =>
    match _h : fetch l.advance with
    | ⟨.error fault, l', t⟩ => ⟨.error fault, l', l.advanceTrace ++ t⟩
    | ⟨.ok data, l', t⟩ => (nextBody { l' with pending := data }).after (l.advanceTrace ++ t)
termination_by l.weight
decreasing_by
  have h₁ := weight_fetch _h
  have h₂ := weight_pending l' data
  have h₃ := weight_advance l
  omega

theorem weight_nextBody {l l' : Link} {body : Bytes} {t : Trace}
    (h : nextBody l = ⟨.ok body, l', t⟩) : l'.weight < l.weight := by
  fun_induction nextBody l generalizing t with
  | case1 l body hb =>
    simp only [Outcome.mk.injEq] at h
    obtain ⟨-, rfl, -⟩ := h
    exact weight_advance_body hb
  | case2 => simp at h
  | case3 l hb data l₁ u hr ih =>
    have h₁ := weight_fetch hr
    have h₂ := weight_pending l₁ data
    have h₃ := weight_advance l
    simp only [Outcome.after, Outcome.mk.injEq] at h
    obtain ⟨hres, rfl, -⟩ := h
    have := ih (t := (nextBody { l₁ with pending := data }).trace) (by
      rw [← hres])
    omega

/-- Reads until a frame carries a packet; a numbered one is acknowledged before it is handed out. -/
def nextPacket (l : Link) : Outcome Link Bytes :=
  match _h : nextBody l with
  | ⟨.error fault, l', t⟩ => ⟨.error fault, l', t⟩
  | ⟨.ok [], l', t⟩ => ⟨.error .emptyBody, l', t⟩
  | ⟨.ok (protocol :: rest), l', t⟩ =>
    match Content.of protocol rest with
    | .packet data => ⟨.ok data, l', t⟩
    | .numbered sequence data =>
      ((write (Frame.ack sequence.toNat) >>= fun _ => pure data) l').after t
    | .foreign protocol => (nextPacket l').after (t ++ [.notice (.foreign protocol)])
termination_by l.weight
decreasing_by exact weight_nextBody _h

end Link
end MoteLink
