import MoteLink.Proofs.Time.Stamp

/-! Stamps in the order of time. A clock time of the calendar is the only one at its instant, and
the figures of its stamp grow with the instant's millisecond. Main statement:
`ZonedTime.stamp_embeds`. -/

namespace MoteLink

namespace Clocktime
open Text

theorem instant_div_millisecond (t : Clocktime) :
    t.instant / 1000 = Calendar.dayNumber t.date * 86400000 +
      ((t.hour * 60 + t.minute) * 60 + t.second) * 1000 + t.microsecond / 1000 := by
  simp only [instant, microsecondsPerDay]
  omega

theorem instant_div_day {t : Clocktime} (h : t.Valid) :
    t.instant / microsecondsPerDay = Calendar.dayNumber t.date := by
  obtain ⟨-, -, hhour, hminute, hsecond, hmicrosecond⟩ := h.bounds
  simp only [instant, microsecondsPerDay]
  omega

section
variable {s t : Clocktime} (hs : s.Valid) (ht : t.Valid)
include hs ht

theorem eq_of_instant_eq (h : s.instant = t.instant) : s = t := by
  have hdate : s.date = t.date := by
    refine Calendar.eq_of_dayNumber_eq hs.date ht.date ?_
    rw [← instant_div_day hs, ← instant_div_day ht, h]
  obtain ⟨-, -, hhour, hminute, hsecond, hmicrosecond⟩ := hs.bounds
  obtain ⟨-, -, hhour', hminute', hsecond', hmicrosecond'⟩ := ht.bounds
  obtain ⟨date, hour, minute, second, microsecond⟩ := s
  obtain ⟨date', hour', minute', second', microsecond'⟩ := t
  simp only [instant] at *
  subst hdate
  obtain ⟨rfl, rfl, rfl, rfl⟩ :
      hour = hour' ∧ minute = minute' ∧ second = second' ∧ microsecond = microsecond' := by
    omega
  rfl

theorem figures_stamp_lt_iff :
    figures s.stamp < figures t.stamp ↔ s.instant / 1000 < t.instant / 1000 := by
  rw [figures_stamp hs, figures_stamp ht, instant_div_millisecond, instant_div_millisecond]
  have hearlier := Calendar.dayNumber_lt_iff hs.date ht.date
  have hlater := Calendar.dayNumber_lt_iff ht.date hs.date
  obtain ⟨-, -, hhour, hminute, hsecond, hmicrosecond⟩ := hs.bounds
  obtain ⟨-, -, hhour', hminute', hsecond', hmicrosecond'⟩ := ht.bounds
  omega

theorem figures_stamp_eq_iff :
    figures s.stamp = figures t.stamp ↔ s.instant / 1000 = t.instant / 1000 := by
  have hearlier := figures_stamp_lt_iff hs ht
  have hlater := figures_stamp_lt_iff ht hs
  omega

end

/-- The 23 characters `yyyy/MM/dd HH:mm:ss.SSS`, with the fields of this time. -/
structure ShownBy (t : Clocktime) (text : String) : Prop where
  length : text.length = 23
  shape : shape text.toList = "0000/00/00 00:00:00.000".toList
  fields : fields text.toList = [t.date.year, t.date.month, t.date.day, t.hour, t.minute,
    t.second, t.microsecond / 1000]

end Clocktime

namespace ZonedTime
open Calendar Clocktime Text

/-- A time of calendar and clock at this instant, as they are with no offset. -/
structure Universal (t : ZonedTime) (u : Clocktime) : Prop where
  valid : u.Valid
  instant : (u.instant : Int) = t.instant

/-- The instant is in the universal years `first` to `last`. -/
def Within (t : ZonedTime) (first last : Nat) : Prop :=
  ((daysBefore first * microsecondsPerDay : Nat) : Int) ≤ t.instant ∧
    t.instant < ((daysBefore (last + 1) * microsecondsPerDay : Nat) : Int)

instance (t : ZonedTime) (first last : Nat) : Decidable (t.Within first last) :=
  inferInstanceAs (Decidable (_ ∧ _))

theorem universal_ofInstant {t : ZonedTime} (h : 0 ≤ t.instant) :
    t.Universal (ofInstant t.instant.toNat) where
  valid := ofInstant_valid _
  instant := by rw [instant_ofInstant, Int.toNat_of_nonneg h]

theorem Universal.unique {t : ZonedTime} {u v : Clocktime} (hu : t.Universal u)
    (hv : t.Universal v) : u = v :=
  eq_of_instant_eq hu.valid hv.valid (Int.ofNat_inj.1 (hu.instant.trans hv.instant.symm))

theorem within_iff {t : ZonedTime} {u : Clocktime} {first last : Nat} (h : t.Universal u)
    (hfirst : 1 ≤ first) : t.Within first last ↔ first ≤ u.date.year ∧ u.date.year ≤ last := by
  have hstart := daysBefore_le_dayNumber_iff hfirst h.valid.date
  have hend := daysBefore_le_dayNumber_iff (show 1 ≤ last + 1 from Nat.succ_pos _) h.valid.date
  have hday := instant_div_day h.valid
  have hinstant := h.instant
  simp only [Within, microsecondsPerDay] at *
  omega

theorem stamp_of_within {t : ZonedTime} (h : t.Within 1000 9999) :
    ∃ u, t.Universal u ∧ 1000 ≤ u.date.year ∧ u.date.year ≤ 9999 ∧
      t.stamp = .ok (String.ofList u.stamp) := by
  have hpos : 0 ≤ t.instant := (Int.natCast_nonneg _).trans h.1
  have hu := universal_ofInstant hpos
  obtain ⟨hlow, hhigh⟩ := (within_iff hu (by decide)).1 h
  refine ⟨_, hu, hlow, hhigh, ?_⟩
  rw [ZonedTime.stamp, universal, if_pos ⟨hpos, h.2⟩]
  rfl

theorem stamp_embeds {a b : ZonedTime} (ha : a.Within 1000 9999) (hb : b.Within 1000 9999) :
    ∃ s t, a.stamp = .ok s ∧ b.stamp = .ok t ∧
      (∃ u, (∀ w, a.Universal w ↔ w = u) ∧ u.ShownBy s) ∧
      (s = t ↔ a.instant / 1000 = b.instant / 1000) ∧
      (s < t ↔ a.instant / 1000 < b.instant / 1000) := by
  obtain ⟨u, hu, hulow, huhigh, hs⟩ := stamp_of_within ha
  obtain ⟨v, hv, hvlow, hvhigh, ht⟩ := stamp_of_within hb
  have hshape := shape_stamp hu.valid hulow huhigh
  have hsame : shape u.stamp = shape v.stamp :=
    hshape.trans (shape_stamp hv.valid hvlow hvhigh).symm
  have huinstant := hu.instant
  have hvinstant := hv.instant
  refine ⟨_, _, hs, ht, ⟨u, fun w => ⟨fun hw => hw.unique hu, fun hw => hw ▸ hu⟩, ?_, ?_, ?_⟩,
    ?_, ?_⟩
  · rw [String.length_ofList, length_stamp hu.valid hulow huhigh]
  · rw [String.toList_ofList, hshape]
  · rw [String.toList_ofList, fields_stamp]
  · rw [String.ofList_inj, eq_iff_figures_eq hsame, figures_stamp_eq_iff hu.valid hv.valid]
    omega
  · have horder := (lt_iff_figures_lt hsame).trans (figures_stamp_lt_iff hu.valid hv.valid)
    change (String.ofList u.stamp).toList < (String.ofList v.stamp).toList ↔ _
    rw [String.toList_ofList, String.toList_ofList, horder]
    omega

/-- The clock east of the date line is ahead, though its stamp comes first. -/
theorem stamp_embeds_leap_day :
    let hours : Int := 3600000000
    let east : ZonedTime := ⟨⟨⟨2024, 3, 1⟩, 10, 0, 0, 999⟩, 12 * hours⟩
    let west : ZonedTime := ⟨⟨⟨2024, 2, 29⟩, 23, 30, 0, 1000⟩, -5 * hours⟩
    east.Within 1000 9999 ∧ west.Within 1000 9999 ∧
      east.stamp = .ok "2024/02/29 22:00:00.000" ∧ west.stamp = .ok "2024/03/01 04:30:00.001" ∧
      "2024/02/29 22:00:00.000" < "2024/03/01 04:30:00.001" := by
  intro hours east west
  have heast : east.Within 1000 9999 := by decide
  have hwest : west.Within 1000 9999 := by decide
  have hstamp : east.stamp = .ok "2024/02/29 22:00:00.000" := by decide
  have hstamp' : west.stamp = .ok "2024/03/01 04:30:00.001" := by decide
  obtain ⟨s, t, hs, ht, -, -, horder⟩ := stamp_embeds heast hwest
  rw [hstamp] at hs
  rw [hstamp'] at ht
  obtain rfl := Except.ok.inj hs
  obtain rfl := Except.ok.inj ht
  exact ⟨heast, hwest, hstamp, hstamp', horder.2 (by decide)⟩

end ZonedTime
end MoteLink
