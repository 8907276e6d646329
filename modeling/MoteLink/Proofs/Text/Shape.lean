import Mathlib.Algebra.Order.Ring.Nat
import MoteLink.Proofs.Text.Numerals

/-! Texts with digits in fixed places. Texts of one shape compare as the numbers do that their
digits make. -/

namespace MoteLink.Text

/-- Where the digits stand and which characters stand between them. -/
def shape (cs : List Char) : List Char := cs.map fun c => if c.isDigit then '0' else c

/-- The number that all digits make together, whatever stands between them. -/
def figures (cs : List Char) : Nat := Nat.ofDigitChars 10 (cs.filter Char.isDigit) 0

/-- The numbers between the characters that are no digits. -/
def fields (cs : List Char) : List Nat :=
  (cs.splitOnP fun c => !c.isDigit).map (Nat.ofDigitChars 10 · 0)

theorem length_shape (cs : List Char) : (shape cs).length = cs.length := List.length_map _

theorem shape_append (xs ys : List Char) : shape (xs ++ ys) = shape xs ++ shape ys :=
  List.map_append

theorem count_digits_of_shape_eq {xs ys : List Char} (h : shape xs = shape ys) :
    (xs.filter Char.isDigit).length = (ys.filter Char.isDigit).length := by
  have hcount : ∀ cs, (shape cs).countP Char.isDigit = (cs.filter Char.isDigit).length := by
    intro cs
    rw [shape, List.countP_map, ← List.countP_eq_length_filter]
    refine List.countP_congr fun c _ => ?_
    by_cases hc : c.isDigit <;> simp [hc]
  rw [← hcount, ← hcount, h]

theorem figures_cons_of_isDigit {c : Char} (hc : c.isDigit) (cs : List Char) :
    figures (c :: cs) =
      10 ^ (cs.filter Char.isDigit).length * (c.toNat - 48) + figures cs := by
  rw [figures, List.filter_cons_of_pos hc, Nat.ofDigitChars_cons,
    Nat.ofDigitChars_eq_ofDigitChars_zero, Nat.mul_zero, Nat.zero_add]
  rfl

theorem figures_cons_of_not_isDigit {c : Char} (hc : ¬ c.isDigit) (cs : List Char) :
    figures (c :: cs) = figures cs := by
  rw [figures, List.filter_cons_of_neg hc, figures]

theorem figures_lt (cs : List Char) : figures cs < 10 ^ (cs.filter Char.isDigit).length := by
  induction cs with
  | nil => decide
  | cons c rest ih =>
    by_cases hc : c.isDigit
    · obtain ⟨-, hhigh⟩ := toNat_of_isDigit hc
      rw [figures_cons_of_isDigit hc, List.filter_cons_of_pos hc, List.length_cons, Nat.pow_succ]
      have hhead := Nat.mul_le_mul_left (10 ^ (rest.filter Char.isDigit).length)
        (show c.toNat - 48 ≤ 9 by omega)
      omega
    · rwa [figures_cons_of_not_isDigit hc, List.filter_cons_of_neg hc]

/-- A number of more than one place is compared by its first place, then by those behind it. -/
theorem places_lt_iff {base i j x y : Nat} (hx : x < base) (hy : y < base) :
    base * i + x < base * j + y ↔ i < j ∨ i = j ∧ x < y := by
  rcases Nat.lt_trichotomy i j with hij | rfl | hji
  · have hstep := Nat.mul_le_mul_left base (Nat.succ_le_of_lt hij)
    rw [Nat.mul_succ] at hstep
    omega
  · omega
  · have hstep := Nat.mul_le_mul_left base (Nat.succ_le_of_lt hji)
    rw [Nat.mul_succ] at hstep
    omega

/-- Characters in the same place of a shape are two digits or the same character. -/
theorem digits_or_same {c d : Char}
    (h : (if c.isDigit then '0' else c) = if d.isDigit then '0' else d) :
    c.isDigit ∧ d.isDigit ∨ ¬ c.isDigit ∧ c = d := by
  by_cases hc : c.isDigit
  · rw [if_pos hc] at h
    by_cases hd : d.isDigit
    · exact .inl ⟨hc, hd⟩
    · rw [if_neg hd] at h
      exact absurd (h ▸ rfl) hd
  · rw [if_neg hc] at h
    by_cases hd : d.isDigit
    · rw [if_pos hd] at h
      exact absurd (h ▸ rfl) hc
    · rw [if_neg hd] at h
      exact .inr ⟨hc, h⟩

theorem lt_iff_figures_lt {xs ys : List Char} (h : shape xs = shape ys) :
    xs < ys ↔ figures xs < figures ys := by
  induction xs generalizing ys with
  | nil =>
    obtain rfl : ys = [] := List.length_eq_zero_iff.1 (by rw [← length_shape, ← h]; rfl)
    simp
  | cons c xs ih =>
    obtain ⟨d, ys, rfl⟩ : ∃ d rest, ys = d :: rest :=
      List.exists_cons_of_ne_nil fun hnil => by simp [hnil, shape] at h
    obtain ⟨hhead, htail⟩ := List.cons.inj h
    rw [List.cons_lt_cons_iff, ih htail]
    rcases digits_or_same hhead with ⟨hc, hd⟩ | ⟨hc, rfl⟩
    · have hplaces := count_digits_of_shape_eq htail
      have hxs := figures_lt xs
      rw [hplaces] at hxs
      rw [figures_cons_of_isDigit hc, figures_cons_of_isDigit hd, hplaces,
        places_lt_iff hxs (figures_lt ys)]
      have hclow := toNat_of_isDigit hc
      have hdlow := toNat_of_isDigit hd
      have hlt : c < d ↔ c.toNat < d.toNat := Iff.rfl
      rw [hlt, ← Char.toNat_inj]
      omega
    · rw [figures_cons_of_not_isDigit hc, figures_cons_of_not_isDigit hc]
      simp

theorem eq_iff_figures_eq {xs ys : List Char} (h : shape xs = shape ys) :
    xs = ys ↔ figures xs = figures ys := by
  refine ⟨congrArg figures, fun heq => List.le_antisymm ?_ ?_⟩
  · rw [← List.not_lt, lt_iff_figures_lt h.symm, heq]
    exact Nat.lt_irrefl _
  · rw [← List.not_lt, lt_iff_figures_lt h, heq]
    exact Nat.lt_irrefl _

section Decimal
variable {width n : Nat}

theorem length_padded {base : Nat} (hbase : 1 < base) (hwidth : 0 < width)
    (h : n < base ^ width) : (padded base width n).length = width := by
  have hdigits := (Nat.length_toDigits_le_iff hbase hwidth).2 h
  simp only [padded, List.length_append, List.length_replicate]
  omega

theorem isDigit_of_mem_decimal {c : Char} (h : c ∈ decimal width n) : c.isDigit := by
  rcases List.mem_append.1 h with hzero | hdigit
  · rw [(List.mem_replicate.1 hzero).2]
    rfl
  · exact Nat.isDigit_of_mem_toDigits (by decide) (by decide) hdigit

theorem shape_decimal (hwidth : 0 < width) (h : n < 10 ^ width) :
    shape (decimal width n) = List.replicate width '0' := by
  refine List.eq_replicate_iff.2 ⟨?_, fun c hc => ?_⟩
  · rw [length_shape]
    exact length_padded (by decide) hwidth h
  · obtain ⟨d, hd, rfl⟩ := List.mem_map.1 hc
    exact if_pos (isDigit_of_mem_decimal hd)

theorem filter_decimal : (decimal width n).filter Char.isDigit = decimal width n :=
  List.filter_eq_self.2 fun _ => isDigit_of_mem_decimal

theorem ofDigitChars_decimal : Nat.ofDigitChars 10 (decimal width n) 0 = n := by
  rw [decimal, padded, Nat.ofDigitChars_append, Nat.ofDigitChars_replicate_zero, Nat.mul_zero,
    Nat.ofDigitChars_ten_toDigits]

/-- A number behind others moves them up by its width. -/
theorem ofDigitChars_decimal_from (hwidth : 0 < width) (h : n < 10 ^ width) (front : Nat) :
    Nat.ofDigitChars 10 (decimal width n) front = 10 ^ width * front + n := by
  rw [Nat.ofDigitChars_eq_ofDigitChars_zero, ofDigitChars_decimal, decimal,
    length_padded (by decide) hwidth h]

theorem fields_decimal : fields (decimal width n) = [n] := by
  rw [fields, List.splitOnP_eq_singleton fun c hc => by simp [isDigit_of_mem_decimal hc],
    List.map_singleton, ofDigitChars_decimal]

theorem fields_decimal_append {c : Char} (hc : ¬ c.isDigit) (rest : List Char) :
    fields (decimal width n ++ c :: rest) = n :: fields rest := by
  rw [fields, List.splitOnP_append_cons_of_forall_mem
    (fun c hc => by simp [isDigit_of_mem_decimal hc]) c (by simp [hc]), List.map_cons,
    ofDigitChars_decimal, fields]

/-- A number that needs its whole width is written without zeros in front. -/
theorem decimal_one_of_le (hlow : 10 ^ (width - 1) ≤ n) (hwidth : 1 < width) :
    decimal 1 n = decimal width n := by
  have hlong := mt (Nat.length_toDigits_le_iff (b := 10) (k := width - 1) (by decide)
    (by omega)).1 (show ¬ n < 10 ^ (width - 1) by omega)
  rw [decimal_one, decimal, padded, Nat.sub_eq_zero_of_le (by omega)]
  rfl

end Decimal

end MoteLink.Text
