/-! Byte strings, and two-byte words in both orders. -/

namespace MoteLink

abbrev Bytes := List UInt8

namespace Bytes

/-- The low byte first. -/
def ofWord (w : BitVec 16) : Bytes := [UInt8.ofNat (w.toNat % 256), UInt8.ofNat (w.toNat / 256)]

def word (low high : UInt8) : BitVec 16 := BitVec.ofNat 16 (low.toNat + 256 * high.toNat)

/-- The high byte first. -/
def ofNetwork (n : Nat) : Bytes := [UInt8.ofNat (n / 256), UInt8.ofNat n]

def network (high low : UInt8) : Nat := 256 * high.toNat + low.toNat

/-- One character for each byte, of the same number. -/
def latin (data : Bytes) : List Char := data.map fun b => Char.ofNat b.toNat

theorem word_ofWord (w : BitVec 16) :
    word (UInt8.ofNat (w.toNat % 256)) (UInt8.ofNat (w.toNat / 256)) = w := by
  apply BitVec.eq_of_toNat_eq
  simp only [word, UInt8.toNat_ofNat', BitVec.toNat_ofNat]
  have := w.isLt
  omega

end Bytes
end MoteLink
