import Mathlib.Algebra.Order.Ring.Nat
import Mathlib.Tactic.SplitIfs
import MoteLink.Time.Calendar

/-! The calendar agrees with itself: a day lies in the year that is found for it, and its month and
day of the month are those of a calendar. -/

namespace MoteLink

namespace Calendar

/-- Leap days never take a year more than two days away from where the mean length puts it. -/
theorem daysBefore_mean (x : Nat) :
    146097 * x ≤ 400 * daysBefore (x + 1) + 699 ∧ 400 * daysBefore (x + 1) ≤ 146097 * x + 396 := by
  have hdays : daysBefore (x + 1) + x / 100 = 365 * x + x / 4 + x / 400 := by
    unfold daysBefore
    rw [Nat.add_sub_cancel]
    omega
  have h4 := Nat.div_add_mod x 4
  have h100 := Nat.div_add_mod x 100
  have h400 := Nat.div_add_mod x 400
  omega

theorem yearOf_bounds (day : Nat) :
    1 ≤ yearOf day ∧ daysBefore (yearOf day) ≤ day ∧ day < daysBefore (yearOf day + 1) := by
  unfold yearOf
  dsimp only
  generalize hx : day * 400 / 146097 = x
  have hlow : 146097 * x ≤ day * 400 := by omega
  have hhigh : day * 400 < 146097 * (x + 1) := by omega
  split_ifs with hnext hbefore
  · have hmean : 146097 * (x + 2) ≤ 400 * daysBefore (x + 1 + 1 + 1) + 699 :=
      (daysBefore_mean (x + 2)).1
    exact ⟨by omega, hnext, by omega⟩
  · cases x with
    | zero => exact absurd hbefore (Nat.not_lt_zero _)
    | succ x =>
      have hmean : 400 * daysBefore (x + 1 + 1 - 1) ≤ 146097 * x + 396 := (daysBefore_mean x).2
      exact ⟨by omega, by omega, hbefore⟩
  · exact ⟨by omega, by omega, by omega⟩

theorem sum_months (leap : Bool) : (months leap).sum = if leap then 366 else 365 := by
  cases leap <;> rfl

theorem daysBefore_succ {year : Nat} (h : 1 ≤ year) :
    daysBefore (year + 1) = daysBefore year + (months (isLeap year)).sum := by
  obtain ⟨x, rfl⟩ : ∃ x, year = x + 1 := ⟨year - 1, by omega⟩
  have hsucc : ∀ n, 0 < n → (x + 1) / n = x / n + if (x + 1) % n = 0 then 1 else 0 := by
    intro n hn
    rw [Nat.succ_div]
    simp [Nat.dvd_iff_mod_eq_zero]
  have hle : x / 100 ≤ 365 * x + x / 4 := by omega
  have h4 : (x + 1) % 100 = 0 → (x + 1) % 4 = 0 := by omega
  have h100 : (x + 1) % 400 = 0 → (x + 1) % 100 = 0 := by omega
  rw [sum_months]
  unfold daysBefore isLeap
  rw [Nat.add_sub_cancel, Nat.add_sub_cancel, hsucc 4 (by decide), hsucc 100 (by decide),
    hsucc 400 (by decide)]
  -- from here on only matters which of the remainders are zero
  generalize x / 4 = a at hle ⊢
  generalize x / 100 = b at hle ⊢
  generalize x / 400 = c
  by_cases hfour : (x + 1) % 4 = 0 <;> by_cases hhundred : (x + 1) % 100 = 0 <;>
    by_cases hcycle : (x + 1) % 400 = 0 <;> simp [hfour, hhundred, hcycle] at h4 h100 ⊢ <;> omega

theorem length_months (leap : Bool) : (months leap).length = 12 := rfl

/-- The days of a month, the months counted from one. -/
def monthLength (year month : Nat) : Nat := (months (isLeap year)).getD (month - 1) 0

theorem monthLength_le (year month : Nat) : monthLength year month ≤ 31 := by
  have hlongest : ∀ leap, ∀ length ∈ months leap, length ≤ 31 := by decide
  unfold monthLength
  rw [List.getD_eq_getElem?_getD]
  cases hlength : (months (isLeap year))[month - 1]? with
  | none => exact Nat.zero_le _
  | some length => exact hlongest _ _ (List.mem_of_getElem? hlength)

end Calendar

namespace Date
open Calendar

/-- A date that the calendar has. -/
structure Valid (date : Date) : Prop where
  year : 1 ≤ date.year
  month : 1 ≤ date.month ∧ date.month ≤ 12
  day : 1 ≤ date.day ∧ date.day ≤ monthLength date.year date.month

/-- The number that year, month and day make when they are written one behind the other. -/
def figure (date : Date) : Nat := (date.year * 100 + date.month) * 100 + date.day

theorem Valid.day_le {date : Date} (h : date.Valid) : date.day ≤ 31 :=
  h.day.2.trans (monthLength_le _ _)

theorem eq_of_figure_eq {a b : Date} (ha : a.Valid) (hb : b.Valid) (h : a.figure = b.figure) :
    a = b := by
  have hadays := ha.day_le
  have hbdays := hb.day_le
  have hamonths := ha.month
  have hbmonths := hb.month
  obtain ⟨year, month, day⟩ := a
  obtain ⟨year', month', day'⟩ := b
  simp only [figure] at *
  obtain ⟨rfl, rfl, rfl⟩ : year = year' ∧ month = month' ∧ day = day' := by omega
  rfl

end Date

namespace Calendar

theorem daysOf_length (lengths : List Nat) : daysOf lengths.length lengths = lengths.sum := by
  induction lengths with
  | nil => rfl
  | cons length rest ih => rw [List.length_cons, daysOf, ih, List.sum_cons]

/-- The days of a month lie before those of the months that follow. -/
theorem daysOf_add_le (lengths : List Nat) {i j : Nat} (h : i < j) (hj : j ≤ lengths.length) :
    daysOf i lengths + lengths.getD i 0 ≤ daysOf j lengths := by
  induction lengths generalizing i j with
  | nil => exact absurd (Nat.lt_of_lt_of_le h hj) (Nat.not_lt_zero _)
  | cons length rest ih =>
    obtain ⟨k, rfl⟩ : ∃ k, j = k + 1 := ⟨j - 1, by omega⟩
    cases i with
    | zero => simp [daysOf]
    | succ i =>
      have hrest := ih (Nat.lt_of_succ_lt_succ h) (Nat.le_of_succ_le_succ hj)
      simp only [daysOf, List.getD_cons_succ]
      omega

theorem monthOf_eq (month : Nat) (lengths : List Nat) (day : Nat) (h : day < lengths.sum) :
    ∃ i rest, i < lengths.length ∧ monthOf month lengths day = (month + i, rest + 1) ∧
      daysOf i lengths + rest = day ∧ rest < lengths.getD i 0 := by
  induction lengths generalizing month day with
  | nil => exact absurd h (Nat.not_lt_zero _)
  | cons length rest ih =>
    rw [monthOf, List.length_cons]
    split_ifs with hday
    · exact ⟨0, day, Nat.succ_pos _, rfl, by simp [daysOf], by simpa using hday⟩
    · rw [List.sum_cons] at h
      obtain ⟨i, left, hi, hmonth, hdays, hleft⟩ := ih (month + 1) (day - length) (by omega)
      refine ⟨i + 1, left, Nat.succ_lt_succ hi, ?_, ?_, by simpa using hleft⟩
      · rw [hmonth, Nat.add_right_comm, Nat.add_assoc]
      · rw [daysOf]
        omega

/-- The date of a day is one of the calendar, and that day's. -/
theorem dateOf_spec (day : Nat) : (dateOf day).Valid ∧ dayNumber (dateOf day) = day := by
  obtain ⟨hyear, hlow, hhigh⟩ := yearOf_bounds day
  rw [daysBefore_succ hyear] at hhigh
  obtain ⟨i, rest, hi, hmonth, hdays, hrest⟩ :=
    monthOf_eq 1 (months (isLeap (yearOf day))) (day - daysBefore (yearOf day)) (by omega)
  have hdate : dateOf day = ⟨yearOf day, 1 + i, rest + 1⟩ := by
    simp only [dateOf, hmonth]
  rw [length_months] at hi
  rw [hdate]
  refine ⟨⟨hyear, ⟨by simp, by simp; omega⟩, ⟨by simp, ?_⟩⟩, ?_⟩
  · simpa [monthLength] using Nat.succ_le_of_lt hrest
  · simp only [dayNumber, Nat.add_sub_cancel_left, Nat.add_sub_cancel]
    omega

theorem daysBefore_mono {x y : Nat} (hx : 1 ≤ x) (h : x ≤ y) : daysBefore x ≤ daysBefore y := by
  induction y, h using Nat.le_induction with
  | base => exact Nat.le_refl _
  | succ y hxy ih =>
    rw [daysBefore_succ (hx.trans hxy)]
    omega

/-- The days up to the end of a date's month are days of its year. -/
theorem dayNumber_lt_daysBefore {date : Date} (h : date.Valid) :
    dayNumber date < daysBefore (date.year + 1) := by
  have hmonth := daysOf_add_le (months (isLeap date.year))
    (show date.month - 1 < 12 by have := h.month; omega) (Nat.le_refl _)
  have htotal := daysOf_length (months (isLeap date.year))
  have hday := h.day
  rw [length_months] at htotal
  rw [daysBefore_succ h.year, dayNumber]
  unfold monthLength at hday
  omega

/-- A day comes after the beginning of the years up to its own. -/
theorem daysBefore_le_dayNumber_iff {first : Nat} (hfirst : 1 ≤ first) {date : Date}
    (h : date.Valid) : daysBefore first ≤ dayNumber date ↔ first ≤ date.year := by
  refine ⟨fun hle => ?_, fun hle => ?_⟩
  · by_contra hlater
    have hend := dayNumber_lt_daysBefore h
    have hnext : daysBefore (date.year + 1) ≤ daysBefore first :=
      daysBefore_mono (Nat.succ_pos _) (Nat.gt_of_not_le hlater)
    omega
  · have hstart := daysBefore_mono hfirst hle
    rw [dayNumber]
    omega

theorem dayNumber_lt {a b : Date} (ha : a.Valid) (hb : b.Valid) (h : a.figure < b.figure) :
    dayNumber a < dayNumber b := by
  have hadays := ha.day_le
  have hbdays := hb.day_le
  have hamonths := ha.month
  have hbmonths := hb.month
  have hday := ha.day
  have hday' := hb.day
  have horder : a.year < b.year ∨ a.year = b.year ∧
      (a.month < b.month ∨ a.month = b.month ∧ a.day < b.day) := by
    unfold Date.figure at h
    omega
  rcases horder with hyear | ⟨hyear, hmonth | ⟨hmonth, hdays⟩⟩
  · have hend := dayNumber_lt_daysBefore ha
    have hstart : daysBefore (a.year + 1) ≤ daysBefore b.year :=
      daysBefore_mono (Nat.succ_pos _) hyear
    have hin : daysBefore b.year ≤ dayNumber b := by
      rw [dayNumber]
      omega
    omega
  · have hlater := daysOf_add_le (months (isLeap b.year))
      (show a.month - 1 < b.month - 1 by omega) (show b.month - 1 ≤ 12 by omega)
    unfold monthLength at hday
    rw [hyear] at hday
    rw [dayNumber, dayNumber, hyear]
    omega
  · rw [dayNumber, dayNumber, hyear, hmonth]
    omega

/-- Days are counted in the order in which their dates are written. -/
theorem dayNumber_lt_iff {a b : Date} (ha : a.Valid) (hb : b.Valid) :
    dayNumber a < dayNumber b ↔ a.figure < b.figure := by
  refine ⟨fun h => ?_, dayNumber_lt ha hb⟩
  rcases Nat.lt_trichotomy a.figure b.figure with hlt | heq | hgt
  · exact hlt
  · rw [Date.eq_of_figure_eq ha hb heq] at h
    exact absurd h (Nat.lt_irrefl _)
  · exact absurd (dayNumber_lt hb ha hgt) (Nat.lt_asymm h)

theorem eq_of_dayNumber_eq {a b : Date} (ha : a.Valid) (hb : b.Valid)
    (h : dayNumber a = dayNumber b) : a = b := by
  have hlt := dayNumber_lt_iff ha hb
  have hgt := dayNumber_lt_iff hb ha
  exact Date.eq_of_figure_eq ha hb (by omega)

end Calendar
end MoteLink
