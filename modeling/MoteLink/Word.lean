/-! Words: the integers that 64 bits hold, with a sign or without. Sizes and positions are kept in
them, so an integer beyond them names neither. -/

namespace MoteLink

/-- Held by a word with a sign, whose bounds are two to the 63rd, below zero and above. -/
def IsWord (n : Int) : Prop := -9223372036854775808 ≤ n ∧ n < 9223372036854775808

/-- Held by a word without a sign, whose bound is two to the 64th. -/
def IsNaturalWord (n : Int) : Prop := 0 ≤ n ∧ n < 18446744073709551616

instance : DecidablePred IsWord := fun n => by
  unfold IsWord
  infer_instance

instance : DecidablePred IsNaturalWord := fun n => by
  unfold IsNaturalWord
  infer_instance

end MoteLink
