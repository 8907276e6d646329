import Mathlib.Algebra.Order.Ring.Nat
import Mathlib.Data.List.Induction
import Mathlib.Data.List.TakeWhile
import MoteLink.Text.Numeral
import MoteLink.Text.Padded

/-! Numbers written and read back. A number is written with the digits `0` to `9`, and whatever is
read has at most as many digits as can be written. Main statements: `read_number` and
`writable_of_read`. -/

namespace MoteLink.Text

/-- With as many digits as a numeral may have, or fewer. -/
def Writable (n : Int) : Prop := (Nat.toDigits 10 n.natAbs).length ≤ Numeral.maxDigits

instance : DecidablePred Writable := fun _ => inferInstanceAs (Decidable (_ ≤ _))

theorem writable_iff (n : Int) : Writable n ↔ n.natAbs < 10 ^ Numeral.maxDigits :=
  Nat.length_toDigits_le_iff (by decide) (by decide)

theorem decimal_one (n : Nat) : decimal 1 n = Nat.toDigits 10 n := by
  have hpos : 1 ≤ (Nat.toDigits 10 n).length := Nat.length_toDigits_pos
  rw [decimal, padded, Nat.sub_eq_zero_of_le hpos]
  rfl

theorem toNat_of_isDigit {c : Char} (h : c.isDigit) : 48 ≤ c.toNat ∧ c.toNat ≤ 57 := by
  simp only [Char.isDigit, Bool.and_eq_true, decide_eq_true_eq, ge_iff_le,
    UInt32.le_iff_toNat_le] at h
  exact h

theorem decimalValue_of_isDigit {c : Char} (h : c.isDigit) :
    decimalValue c = some (c.toNat - 48) := by
  obtain ⟨hlow, hhigh⟩ := toNat_of_isDigit h
  have hrow : c.toNat < 48 + 10 := by omega
  simp [decimalValue, zeros, hlow, hrow]

theorem decimalValue_lt {c : Char} {d : Nat} (h : decimalValue c = some d) : d < 10 := by
  obtain ⟨z, hz, rfl⟩ := Option.map_eq_some_iff.1 h
  have hrow := List.find?_some hz
  simp only [Bool.and_eq_true, decide_eq_true_eq] at hrow
  omega

theorem not_blank_of_isDigit {c : Char} (h : c.isDigit) : isBlank c = false := by
  obtain ⟨hlow, hhigh⟩ := toNat_of_isDigit h
  simp only [isBlank, Ranges.contains, blanks, List.any_eq_false, Bool.and_eq_true,
    decide_eq_true_eq]
  simp
  omega

theorem trim_of_no_blank {cs : List Char} (h : ∀ c ∈ cs, isBlank c = false) : trim cs = cs := by
  have hkeep : ∀ l : List Char, (∀ c ∈ l, isBlank c = false) → l.dropWhile isBlank = l := by
    intro l hl
    cases l with
    | nil => rfl
    | cons c rest => simp [hl c]
  rw [trim, hkeep cs h, hkeep cs.reverse fun c hc => h c (List.mem_reverse.1 hc),
    List.reverse_reverse]

theorem mem_of_mem_trim {c : Char} {cs : List Char} (h : c ∈ trim cs) : c ∈ cs := by
  have hfirst := (List.dropWhile_sublist isBlank).mem (List.mem_reverse.1 h)
  exact (List.dropWhile_sublist isBlank).mem (List.mem_reverse.1 hfirst)

theorem exists_of_map_ok {f : α → β} {x : Except ε α} {b : β} (h : x.map f = .ok b) :
    ∃ a, x = .ok a ∧ b = f a := by
  cases x with
  | error e => exact nomatch h
  | ok a => exact ⟨a, rfl, (Except.ok.inj h).symm⟩

namespace Numeral

theorem wellGrouped_of_no_underscore {cs : List Char} (hne : cs ≠ []) (h : '_' ∉ cs) :
    wellGrouped cs = true := by
  fun_induction wellGrouped cs with
  | case1 => exact absurd rfl hne
  | case2 c => exact bne_iff_ne.2 fun e => h (e ▸ List.mem_singleton_self c)
  | case3 rest => simp at h
  | case4 c rest => simp at h
  | case5 c rest hrest _ _ ih => exact ih hrest fun hmem => h (List.mem_cons_of_mem c hmem)

theorem value_digits (n : Nat) : value ((Nat.toDigits 10 n).filterMap decimalValue) = n := by
  have hvalue : ∀ cs : List Char, (∀ c ∈ cs, c.isDigit) → ∀ k : Nat,
      (cs.filterMap decimalValue).foldl (fun n d => 10 * n + d) k = Nat.ofDigitChars 10 cs k := by
    intro cs hcs
    induction cs with
    | nil => simp
    | cons c rest ih =>
      intro k
      obtain ⟨hc, hrest⟩ := List.forall_mem_cons.1 hcs
      rw [List.filterMap_cons_some (decimalValue_of_isDigit hc), List.foldl_cons, ih hrest,
        Nat.ofDigitChars_cons]
      rfl
  rw [value, hvalue _ fun c hc => Nat.isDigit_of_mem_toDigits (by decide) (by decide) hc]
  exact Nat.ofDigitChars_ten_toDigits

theorem value_lt {digits : List Nat} (h : ∀ d ∈ digits, d < 10) :
    value digits < 10 ^ digits.length := by
  induction digits using List.reverseRecOn with
  | nil => simp [value]
  | append_singleton front d ih =>
    have hfront := ih fun x hx => h x (List.mem_append_left _ hx)
    have hlast := h d (by simp)
    rw [value, List.foldl_append, ← value, List.length_append, List.length_singleton, Nat.pow_succ]
    simp only [List.foldl_cons, List.foldl_nil]
    omega

theorem readDigits_of_ok {text : String} {cs : List Char} {n : Nat}
    (h : readDigits text cs = .ok n) :
    ((cs.takeWhile isPart).filterMap decimalValue).length ≤ maxDigits ∧
      n = value ((cs.takeWhile isPart).filterMap decimalValue) := by
  simp only [readDigits] at h
  split at h
  · exact nomatch h
  · split at h
    · exact nomatch h
    · rename_i hlength
      split at h
      · exact nomatch h
      · exact ⟨Nat.not_lt.1 hlength, (Except.ok.inj h).symm⟩

theorem lt_of_readDigits {text : String} {cs : List Char} {n : Nat}
    (h : readDigits text cs = .ok n) : n < 10 ^ maxDigits := by
  obtain ⟨hlength, rfl⟩ := readDigits_of_ok h
  refine Nat.lt_of_lt_of_le (value_lt fun d hd => ?_) (Nat.pow_le_pow_right (by decide) hlength)
  obtain ⟨c, -, hc⟩ := List.mem_filterMap.1 hd
  exact decimalValue_lt hc

theorem readDigits_toDigits (text : String) {n : Nat} (h : (Nat.toDigits 10 n).length ≤ maxDigits) :
    readDigits text (Nat.toDigits 10 n) = .ok n := by
  have hdigit : ∀ c ∈ Nat.toDigits 10 n, c.isDigit :=
    fun c hc => Nat.isDigit_of_mem_toDigits (by decide) (by decide) hc
  have hpart : (Nat.toDigits 10 n).takeWhile isPart = Nat.toDigits 10 n := by
    rw [List.takeWhile_eq_self_iff]
    intro c hc
    rw [isPart, isDecimal, decimalValue_of_isDigit (hdigit c hc)]
    rfl
  have hgroup : wellGrouped (Nat.toDigits 10 n) = true :=
    wellGrouped_of_no_underscore Nat.toDigits_ne_nil Nat.underscore_not_in_toDigits
  have hcount : ((Nat.toDigits 10 n).filterMap decimalValue).length ≤ maxDigits :=
    Nat.le_trans (List.length_filterMap_le _ _) h
  simp [readDigits, hpart, hgroup, Nat.not_lt.2 hcount, value_digits]

/-- A numeral is a sign and digits; without a minus the digits are all of it. -/
theorem read_cases {text : String} {n : Int} (h : read text = .ok n) :
    (∃ m cs, readDigits text cs = .ok m ∧ n = Int.ofNat m) ∨
      ∃ m rest, trim text.toList = '-' :: rest ∧ readDigits text rest = .ok m ∧ n = -(m : Int) := by
  unfold read at h
  split at h
  · obtain ⟨m, hm, rfl⟩ := exists_of_map_ok h
    exact .inl ⟨m, _, hm, rfl⟩
  · rename_i rest hminus
    cases hm : readDigits text rest with
    | error cause =>
      rw [hm] at h
      exact nomatch h
    | ok m =>
      rw [hm] at h
      exact .inr ⟨m, rest, hminus, hm, (Except.ok.inj h).symm⟩
  · obtain ⟨m, hm, rfl⟩ := exists_of_map_ok h
    exact .inl ⟨m, _, hm, rfl⟩

/-- What is read has no more digits than can be written. -/
theorem writable_of_read {text : String} {n : Int} (h : read text = .ok n) : Writable n := by
  rw [writable_iff]
  rcases read_cases h with ⟨m, cs, hm, rfl⟩ | ⟨m, rest, -, hm, rfl⟩
  · exact lt_of_readDigits hm
  · rw [Int.natAbs_neg]
    exact lt_of_readDigits hm

theorem nonneg_of_read {text : String} {n : Int} (hdigits : isDigits text)
    (h : read text = .ok n) : 0 ≤ n := by
  rcases read_cases h with ⟨m, cs, -, rfl⟩ | ⟨m, rest, hminus, -, -⟩
  · exact Int.natCast_nonneg m
  · have hmem : '-' ∈ text.toList := mem_of_mem_trim (hminus ▸ List.mem_cons_self)
    simp only [isDigits, Bool.and_eq_true, List.all_eq_true] at hdigits
    exact absurd (hdigits.2 '-' hmem) (by decide +kernel)

theorem toList_number (n : Int) : (number n).toList = integer n := String.toList_ofList

theorem read_number {n : Int} (h : Writable n) : read (number n) = .ok n := by
  have hdigit : ∀ c ∈ Nat.toDigits 10 n.natAbs, c.isDigit :=
    fun c hc => Nat.isDigit_of_mem_toDigits (by decide) (by decide) hc
  have hblank : ∀ c ∈ Nat.toDigits 10 n.natAbs, isBlank c = false :=
    fun c hc => not_blank_of_isDigit (hdigit c hc)
  by_cases hneg : n < 0
  · have htrim : trim (integer n) = '-' :: Nat.toDigits 10 n.natAbs := by
      rw [integer, if_pos hneg, decimal_one]
      exact trim_of_no_blank (List.forall_mem_cons.2 ⟨by decide, hblank⟩)
    simp only [read, toList_number, htrim, readDigits_toDigits _ h, Except.map]
    exact congrArg Except.ok (by omega)
  · have htrim : trim (integer n) = Nat.toDigits 10 n.natAbs := by
      rw [integer, if_neg hneg, decimal_one]
      exact trim_of_no_blank hblank
    have hsign : ∀ c rest, Nat.toDigits 10 n.natAbs = c :: rest → c ≠ '+' ∧ c ≠ '-' := by
      intro c rest hcs
      have hc := hdigit c (hcs ▸ List.mem_cons_self)
      constructor <;>
      · rintro rfl
        exact absurd hc (by decide)
    rw [read, toList_number, htrim]
    split
    · rename_i rest hcs
      exact absurd rfl (hsign _ _ hcs).1
    · rename_i rest hcs
      exact absurd rfl (hsign _ _ hcs).2
    · rw [readDigits_toDigits _ h]
      exact congrArg Except.ok (Int.natAbs_of_nonneg (Int.not_lt.1 hneg))

theorem mem_number {n : Int} {c : Char} (h : c ∈ (number n).toList) :
    c = '-' ∧ n < 0 ∨ c.isDigit := by
  rw [toList_number, integer, decimal_one] at h
  split at h
  · rename_i hneg
    rcases List.mem_cons.1 h with rfl | hc
    · exact .inl ⟨rfl, hneg⟩
    · exact .inr (Nat.isDigit_of_mem_toDigits (by decide) (by decide) hc)
  · exact .inr (Nat.isDigit_of_mem_toDigits (by decide) (by decide) h)

theorem colon_not_mem_number (n : Int) : ':' ∉ (number n).toList := by
  intro h
  rcases mem_number h with ⟨hc, -⟩ | hc
  · exact absurd hc (by decide)
  · exact absurd hc (by decide)

theorem isDigits_number {n : Int} (h : 0 ≤ n) : isDigits (number n) := by
  have hne : number n ≠ "" := by
    intro hempty
    have hcs := toList_number n
    rw [hempty, integer, if_neg (Int.not_lt.2 h), decimal_one] at hcs
    exact Nat.toDigits_ne_nil hcs.symm
  simp only [isDigits, Bool.and_eq_true, List.all_eq_true]
  refine ⟨by simpa using hne, fun c hc => ?_⟩
  have hdigit : c.isDigit := (mem_number hc).resolve_left fun hneg => by omega
  rw [isDigit, isDecimal, decimalValue_of_isDigit hdigit]
  rfl

end Numeral
end MoteLink.Text
