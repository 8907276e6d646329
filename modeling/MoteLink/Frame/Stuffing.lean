import MoteLink.Bytes

/-! Byte stuffing: the delimiter and the escape mark never stand inside a frame; an escape mark and
the byte with one bit flipped stand for them. -/

namespace MoteLink.Frame

def delimiter : UInt8 := 0x7E
def escapeMark : UInt8 := 0x7D

/-- Flips the bit that tells a reserved byte from its stand-in. -/
def toggle (b : UInt8) : UInt8 := b ^^^ 0x20

def Reserved (b : UInt8) : Prop := b = delimiter ∨ b = escapeMark

instance (b : UInt8) : Decidable (Reserved b) := inferInstanceAs (Decidable (_ ∨ _))

def stuff : Bytes → Bytes
  | [] => []
  | b :: rest => if Reserved b then escapeMark :: toggle b :: stuff rest else b :: stuff rest

theorem toggle_toggle (b : UInt8) : toggle (toggle b) = b := by
  rw [toggle, toggle, UInt8.xor_assoc, UInt8.xor_self, UInt8.xor_zero]

end MoteLink.Frame
