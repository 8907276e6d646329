import MoteLink.Link.Forwarder

/-! Working a link by hand, step by step. Each kind of link knows some of the steps only. -/

namespace MoteLink.Link

inductive Step where
  | connect
  | close
  | nextPacket
  | nextBody
  | fetch
  | receiveSome
  | receiveExactly (size : Int)
  | write (data : Bytes)
  deriving DecidableEq, Repr

namespace Step

def name : Step → String
  | .connect => "open"
  | .close => "close"
  | .nextPacket => "read_packet"
  | .nextBody => "read_frame"
  | .fetch => "read_bytes"
  | .receiveSome => "recv_some"
  | .receiveExactly _ => "recv_exact"
  | .write _ => "write_bytes"

/-- Frames are for links that carry a stream, exact reads for sockets. -/
def isKnown : Step → Endpoint → Bool
  | .nextBody, .forwarder .. | .fetch, .forwarder .. | .write _, .forwarder .. => false
  | .receiveSome, .serial .. | .receiveExactly _, .serial .. => false
  | _, _ => true

end Step

def performKnown : Step → Act Link (Option Bytes)
  | .connect => do connect; return none
  | .close => do close; return none
  | .nextPacket => some <$> read
  | .nextBody => some <$> nextBody
  | .fetch => some <$> fetch
  | .receiveSome => some <$> receiveSome
  | .receiveExactly size => some <$> Link.receiveExactly size.toNat
  | .write data => do Link.write data; return none

def perform (step : Step) : Act Link (Option Bytes) := do
  let endpoint ← Act.look (·.endpoint)
  if step.isKnown endpoint then performKnown step
  else Act.fail (.noOperation endpoint.label step.name)

/-- Sources without a line to read from: of packets only, or of frames too. -/
inductive Bare where
  | packets
  | framed
  deriving DecidableEq, Repr

namespace Bare

def label : Bare → String
  | packets => "PacketSource"
  | framed => "FramedSource"

def perform (bare : Bare) (step : Step) : Except Fault Unit :=
  match step, bare with
  | .connect, _ | .close, _ => .ok ()
  | .nextPacket, _ => .error .unimplemented
  | .nextBody, .framed | .fetch, .framed | .write _, .framed => .error .unimplemented
  | _, _ => .error (.noOperation bare.label step.name)

end Bare

end MoteLink.Link
