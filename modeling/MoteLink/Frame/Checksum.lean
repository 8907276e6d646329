import MoteLink.Bytes

/-! The sixteen-bit checksum of a frame: the register is shifted left bit by bit, and the generator
is added whenever a one falls out. -/

namespace MoteLink.Frame.Checksum

/-- The bits 12, 5 and 0 of the generator; bit 16 is the one that falls out. -/
def generator : BitVec 16 := 0x1021#16

def shiftBit (c : BitVec 16) : BitVec 16 :=
  if c.msb then (c <<< 1) ^^^ generator else c <<< 1

def shiftByte (c : BitVec 16) : BitVec 16 := Nat.repeat shiftBit 8 c

/-- A byte enters at the top of the register. -/
def enter (c : BitVec 16) (b : UInt8) : BitVec 16 :=
  shiftByte (c ^^^ (b.toBitVec.setWidth 16 <<< 8))

def fromStart (start : BitVec 16) (data : Bytes) : BitVec 16 := data.foldl enter start

def of (data : Bytes) : BitVec 16 := fromStart 0 data

/-- Continues from any integer: of a start value only the low sixteen bits count, but with no byte
to read it is the answer as it stands. -/
def continued (start : Int) (data : Bytes) : Int :=
  if data.isEmpty then start else (fromStart (BitVec.ofInt 16 start) data).toNat

end MoteLink.Frame.Checksum
