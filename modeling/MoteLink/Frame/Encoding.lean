import MoteLink.Frame.Checksum
import MoteLink.Frame.Stuffing

/-! Frames: a body and its checksum, stuffed, between two delimiters. -/

namespace MoteLink.Frame

/-- The most bytes between two delimiters once unstuffed, checksum included. -/
def capacity : Nat := 264

/-- A body with its checksum, low byte first. -/
def summed (body : Bytes) : Bytes := body ++ Bytes.ofWord (Checksum.of body)

def encode (body : Bytes) : Bytes := delimiter :: stuff (summed body) ++ [delimiter]

def acknowledgement : UInt8 := 0x43

/-- The frame that acknowledges a sequence number, of which the low byte is sent. -/
def ack (sequence : Int) : Bytes := encode [acknowledgement, UInt8.ofNat (sequence % 256).toNat]

inductive Drop where
  | tooLong (size : Nat)
  | brokenEscape
  | short (content : Bytes)
  | badChecksum (computed received : BitVec 16) (content : Bytes)
  deriving DecidableEq, Repr

/-- The body of a content whose checksum is right. A body has a byte at least. -/
def judge (content : Bytes) : Except Drop Bytes :=
  if content.length < 3 then .error (.short content)
  else
    let body := content.take (content.length - 2)
    match content.drop (content.length - 2) with
    | [low, high] =>
      let received := Bytes.word low high
      if Checksum.of body = received then .ok body
      else .error (.badChecksum (Checksum.of body) received content)
    | _ => .error (.short content)

end MoteLink.Frame
