import MoteLink.Packet.Buffer

/-! Messages: a payload with the addresses it travelled between, and a kind. Some kinds hold a text
buffer. -/

namespace MoteLink

/-- A kind of message: its name, the type of the packets that carry it, and the size of its buffer
if it holds one. -/
structure Kind where
  label : String
  type : Int
  buffer : Option Int := none
  deriving DecidableEq, Repr

namespace Kind

def raw : Kind := { label := "Message", type := -1 }

/-- The text that motes print, 28 bytes at a time. -/
def printf : Kind := { label := "PrintfMsg", type := 100, buffer := some 28 }

end Kind

structure Message where
  kind : Kind
  data : Bytes := []
  destination : Option Int := none
  source : Option Int := none
  group : Option Int := none
  deriving DecidableEq, Repr

namespace Message

def buffer? (m : Message) : Option Bytes := m.kind.buffer.map (Buffer.fit · m.data)

def bufferElement (m : Message) (position : Int) : Except Fault UInt8 :=
  match m.buffer? with
  | some buffer => Buffer.element buffer position
  | none => .error (.noOperation m.kind.label "get_element_buffer")

/-- The message itself, if its buffer can be made. -/
def made (m : Message) : Except Fault Message :=
  match m.kind.buffer with
  | some size => (Buffer.checkSize size).map fun _ => m
  | none => .ok m

def carrying (m : Message) (data : Bytes) (destination source group : Option Int) : Message :=
  { kind := m.kind, data, destination, source, group }

def describeNumber : Option Int → String
  | some n => Text.number n
  | none => "None"

def describe (m : Message) : String :=
  m.kind.label ++ "(am_type=" ++ Text.number m.kind.type ++ ", src=" ++ describeNumber m.source ++
    ", addr=" ++ describeNumber m.destination ++ ", data=" ++ Text.quoteBytes m.data ++ ")"

theorem made_eq_ok_iff {m n : Message} :
    m.made = .ok n ↔ n = m ∧ ∀ size ∈ m.kind.buffer, Buffer.checkSize size = .ok () := by
  unfold made
  cases m.kind.buffer with
  | none => simp [eq_comm]
  | some size => cases h : Buffer.checkSize size <;> simp [Except.map, h, eq_comm]

/-- Once a message is made, so is every other of its kind. -/
theorem made_carrying {m n : Message} (h : m.made = .ok n) (data : Bytes)
    (destination source group : Option Int) :
    (m.carrying data destination source group).made =
      .ok (m.carrying data destination source group) :=
  made_eq_ok_iff.2 ⟨rfl, (made_eq_ok_iff.1 h).2⟩

end Message
end MoteLink
