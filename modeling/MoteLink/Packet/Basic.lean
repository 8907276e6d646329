import MoteLink.Bytes

/-! Active-message packets: a dispatch byte, destination and source high byte first, the length of
the payload, group and type, and the payload. Bytes beyond the payload do not count. -/

namespace MoteLink

structure Packet where
  destination : Nat
  source : Nat
  group : UInt8
  type : UInt8
  payload : Bytes
  deriving DecidableEq, Repr

namespace Packet

def dispatch : UInt8 := 0x00

def parse? : Bytes → Option Packet
  | d :: dh :: dl :: sh :: sl :: length :: group :: type :: rest =>
    if d = dispatch ∧ length.toNat ≤ rest.length then
      some
        { destination := Bytes.network dh dl
          source := Bytes.network sh sl
          group, type
          payload := rest.take length.toNat }
    else none
  | _ => none

/-- Right for addresses below 65536 and payloads of at most 255 bytes. -/
def encode (p : Packet) : Bytes :=
  dispatch :: Bytes.ofNetwork p.destination ++ Bytes.ofNetwork p.source ++
    [UInt8.ofNat p.payload.length, p.group, p.type] ++ p.payload

end Packet
end MoteLink
