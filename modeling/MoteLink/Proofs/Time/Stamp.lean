import MoteLink.Proofs.Text.Shape
import MoteLink.Proofs.Time.Calendar
import MoteLink.Time.Stamp

/-! What a stamp shows: the fields of a clock time, each in its place, as long as the year has four
digits. -/

namespace MoteLink

namespace Clocktime
open Text

/-- A time that the calendar and the clock have. -/
structure Valid (t : Clocktime) : Prop where
  date : t.date.Valid
  hour : t.hour < 24
  minute : t.minute < 60
  second : t.second < 60
  microsecond : t.microsecond < 1000000

theorem Valid.bounds {t : Clocktime} (h : t.Valid) : t.date.month ≤ 12 ∧ t.date.day ≤ 31 ∧
    t.hour < 24 ∧ t.minute < 60 ∧ t.second < 60 ∧ t.microsecond < 1000000 :=
  ⟨h.date.month.2, h.date.day_le, h.hour, h.minute, h.second, h.microsecond⟩

theorem ofInstant_valid (n : Nat) : (ofInstant n).Valid where
  date := (Calendar.dateOf_spec (n / microsecondsPerDay)).1
  hour := by
    simp only [ofInstant, microsecondsPerDay]
    omega
  minute := Nat.mod_lt _ (by decide)
  second := Nat.mod_lt _ (by decide)
  microsecond := Nat.mod_lt _ (by decide)

theorem instant_ofInstant (n : Nat) : (ofInstant n).instant = n := by
  have hday := (Calendar.dateOf_spec (n / microsecondsPerDay)).2
  simp only [microsecondsPerDay] at hday
  simp only [instant, ofInstant, microsecondsPerDay, hday]
  omega

theorem fields_stamp (t : Clocktime) :
    fields t.stamp = [t.date.year, t.date.month, t.date.day, t.hour, t.minute, t.second,
      t.microsecond / 1000] := by
  simp only [stamp, List.append_assoc, List.cons_append, fields_decimal_append, fields_decimal,
    Char.reduceIsDigit, Bool.false_eq_true, not_false_eq_true]

section
variable {t : Clocktime} (h : t.Valid)
include h

theorem shape_stamp (low : 1000 ≤ t.date.year) (high : t.date.year ≤ 9999) :
    shape t.stamp = "0000/00/00 00:00:00.000".toList := by
  have hyear : decimal 1 t.date.year = decimal 4 t.date.year :=
    decimal_one_of_le low (by decide)
  have htwo : ∀ k, k < 100 → shape (decimal 2 k) = ['0', '0'] :=
    fun k hk => shape_decimal (by decide) hk
  have hcons : ∀ c cs, shape (c :: cs) = (if c.isDigit then '0' else c) :: shape cs :=
    fun _ _ => rfl
  obtain ⟨hmonth, hday, hhour, hminute, hsecond, hmicrosecond⟩ := h.bounds
  rw [stamp, hyear]
  simp only [shape_append, hcons]
  rw [shape_decimal (by decide) (show t.date.year < 10 ^ 4 by omega), htwo _ (by omega),
    htwo _ (by omega), htwo _ (by omega), htwo _ (by omega), htwo _ (by omega),
    shape_decimal (by decide) (show t.microsecond / 1000 < 10 ^ 3 by omega)]
  decide

theorem length_stamp (low : 1000 ≤ t.date.year) (high : t.date.year ≤ 9999) :
    t.stamp.length = 23 := by
  rw [← length_shape, shape_stamp h low high]
  rfl

/-- The figures of a stamp, read as one number. -/
theorem figures_stamp :
    figures t.stamp = (((t.date.figure * 100 + t.hour) * 100 + t.minute) * 100 + t.second) * 1000 +
      t.microsecond / 1000 := by
  have htwo : ∀ k, k < 100 → ∀ n, Nat.ofDigitChars 10 (decimal 2 k) n = 10 ^ 2 * n + k :=
    fun k hk => ofDigitChars_decimal_from (by decide) hk
  obtain ⟨hmonth, hday, hhour, hminute, hsecond, hmicrosecond⟩ := h.bounds
  simp only [figures, stamp, List.filter_append, List.filter_cons, filter_decimal,
    Nat.ofDigitChars_append, ofDigitChars_decimal, Char.reduceIsDigit, Bool.false_eq_true,
    if_false]
  rw [htwo _ (by omega), htwo _ (by omega), htwo _ (by omega), htwo _ (by omega),
    htwo _ (by omega),
    ofDigitChars_decimal_from (by decide) (show t.microsecond / 1000 < 10 ^ 3 by omega)]
  unfold Date.figure
  omega

end

theorem newline_not_mem_stamp (t : Clocktime) : '\n' ∉ t.stamp := by
  have hdecimal : ∀ width k, '\n' ∉ decimal width k :=
    fun _ _ h => absurd (isDigit_of_mem_decimal h) (by decide)
  simp [stamp, hdecimal]

end Clocktime

namespace ZonedTime

/-- Shows a universal time whose year has four digits. -/
def Dated (t : ZonedTime) : Prop :=
  ∃ u, t.universal = .ok u ∧ 1000 ≤ u.date.year ∧ u.date.year ≤ 9999

theorem Dated.stamp {t : ZonedTime} (h : t.Dated) :
    ∃ cs, t.stamp = .ok (String.ofList cs) ∧ cs.length = 23 ∧ '\n' ∉ cs := by
  obtain ⟨u, hu, hlow, hhigh⟩ := h
  have hinstant : u = .ofInstant t.instant.toNat := by
    unfold universal at hu
    split_ifs at hu
    exact (Except.ok.inj hu).symm
  refine ⟨u.stamp, by rw [ZonedTime.stamp, hu]; rfl, ?_, u.newline_not_mem_stamp⟩
  subst hinstant
  exact Clocktime.length_stamp (Clocktime.ofInstant_valid _) hlow hhigh

end ZonedTime
end MoteLink
