import MoteLink.Reader.Feed

/-! Recorded packet sources: each time the source is opened it takes the next session, whose items
are then read one by one. -/

namespace MoteLink

inductive Item where
  | packet (data : Bytes)
  | fails (fault : Fault)
  /-- A stop is requested while the read waits, and then the read fails. -/
  | stops (fault : Fault)
  deriving DecidableEq, Repr

structure Session where
  openFault : Option Fault := none
  items : List Item := []
  closeFault : Option Fault := none
  deriving DecidableEq, Repr

/-- `items` are those of the last session that opened without a fault, `closeFault` is that of the
last session taken. -/
structure Playback where
  title : String
  items : List Item := []
  closeFault : Option Fault := none
  sessions : List Session := []
  stopping : Bool := false
  deriving DecidableEq, Repr

namespace Playback

def failIf : Option Fault → Act σ Unit
  | some fault => Act.fail fault
  | none => pure ()

/-- A session is used up even if opening it faults; its own items are then never read, and what the
session before left stays readable. -/
def connect : Act Playback Unit := do
  Act.emit .openSource
  match ← Act.look (·.sessions) with
  | [] => Act.fail .exhausted
  | session :: rest =>
    Act.update fun p => { p with sessions := rest, closeFault := session.closeFault }
    failIf session.openFault
    Act.update fun p => { p with items := session.items }

def close : Act Playback Unit := do
  Act.emit .close
  failIf (← Act.look (·.closeFault))

def requestStop : Act Playback Unit := do
  Act.update fun p => { p with stopping := true }
  close

def read : Act Playback Bytes := do
  match ← Act.look (·.items) with
  | [] => Act.fail .unplugged
  | item :: rest =>
    Act.update fun p => { p with items := rest }
    match item with
    | .packet data => return data
    | .fails fault => Act.fail fault
    | .stops fault => do
      requestStop
      Act.fail fault

def size : List Session → Nat
  | [] => 0
  | s :: rest => s.items.length + 1 + size rest

def remaining (p : Playback) : Nat := p.items.length + size p.sessions

instance : PacketFeed Playback where
  describe := (·.title)
  connect := connect
  read := read
  close := close
  requestStop := requestStop
  stopping := (·.stopping)
  remaining := remaining

end Playback
end MoteLink
