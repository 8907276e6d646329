import MoteLink.Fault
import MoteLink.Word

/-! Text buffers: bytes of a fixed size, cut or filled up with zeros from a payload. A size that
is no word, or more than memory holds, makes no buffer. -/

namespace MoteLink.Buffer

/-- Cut to `size` bytes and filled up with zeros; a negative size counts bytes to drop at the
end. -/
def fit (size : Int) (data : Bytes) : Bytes :=
  if size < 0 then data.take (data.length - size.natAbs)
  else data.take size.toNat ++ List.replicate (size.toNat - data.length) 0

/-- The bytes that a block of memory takes besides those it holds. -/
def overhead : Int := 33

/-- The most bytes that a buffer gets: 64 times two to the 30th. -/
def limit : Int := 68719476736

/-- Whether a buffer of this size can be made. The size is a word, and so is that of the block of
memory that holds the buffer. -/
def checkSize (size : Int) : Except Fault Unit :=
  if ¬ IsWord size then .error .wideSize
  else if ¬ IsWord (size + overhead) then .error .longBuffer
  else if limit < size then .error .noMemory
  else .ok ()

/-- An element of a buffer. Negative positions count from the end. A position that is no word is
refused whatever the size is. -/
def element (buffer : Bytes) (position : Int) : Except Fault UInt8 :=
  if IsWord position then
    let place := if position < 0 then position + buffer.length else position
    match if place < 0 then none else buffer[place.toNat]? with
    | some b => .ok b
    | none => .error (.index position buffer.length)
  else if IsNaturalWord position then .error .widePosition
  else .error .noPosition

/-- A buffer up to its first zero. -/
def text (buffer : Bytes) : String := String.ofList (Bytes.latin (buffer.takeWhile (· != 0)))

theorem checkSize_eq_ok_iff {size : Int} :
    checkSize size = .ok () ↔ IsWord size ∧ size ≤ limit := by
  unfold checkSize IsWord overhead limit
  repeat' split
  all_goals simp only [reduceCtorEq, true_iff, false_iff]
  all_goals omega

theorem length_fit {size : Int} (h : 0 ≤ size) (data : Bytes) :
    (fit size data).length = size.toNat := by
  unfold fit
  rw [if_neg (by omega)]
  simp
  omega

end MoteLink.Buffer
