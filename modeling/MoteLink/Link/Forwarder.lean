import MoteLink.Link.Framed
import MoteLink.Reader.Feed

/-! Links to a forwarder, which sends whole packets after an exchange of versions, and links of any
kind as sources of packets. -/

namespace MoteLink.Link

/-- The version sent; of the one received only the first byte counts. -/
def version : Bytes := [0x55, 0x20]

def greet : Act Link Unit := do
  write version
  let answer ← receiveExactly 2
  if answer.take 1 ≠ version.take 1 then
    close
    Act.fail (.unknownVersion (← Act.look describe) answer)

/-- A packet behind a byte that holds its length. -/
def readMeasured : Act Link Bytes := do
  match ← receiveExactly 1 with
  | [size] => receiveExactly size.toNat
  | _ => Act.fail .emptyBody

def dialling : Endpoint → Event
  | .serial device baud => .dialPort device baud
  | .network host port | .forwarder host port => .dialHost host port

def connect : Act Link Unit := do
  let endpoint ← Act.look (·.endpoint)
  match endpoint with
  | .serial .. | .network .. => do
    clear
    Act.emit (dialling endpoint)
    dial
  | .forwarder .. => do
    Act.emit (dialling endpoint)
    dial
    greet

def read : Act Link Bytes := fun l =>
  match l.endpoint with
  | .serial .. | .network .. => nextPacket l
  | .forwarder .. => readMeasured l

instance : PacketFeed Link where
  describe := describe
  connect := connect
  read := read
  close := close
  requestStop := requestStop
  stopping := (·.stopping)
  remaining := weight

end MoteLink.Link
