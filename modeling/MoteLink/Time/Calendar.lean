/-! Days and dates of the Gregorian calendar, extended back to the year 1. Day 0 is the first of
January of the year 1. -/

namespace MoteLink

structure Date where
  year : Nat
  month : Nat
  day : Nat
  deriving DecidableEq, Repr

namespace Calendar

def isLeap (year : Nat) : Bool := year % 4 == 0 && (year % 100 != 0 || year % 400 == 0)

def months (leap : Bool) : List Nat :=
  [31, if leap then 29 else 28, 31, 30, 31, 30, 31, 31, 30, 31, 30, 31]

/-- The days before the first of January. -/
def daysBefore (year : Nat) : Nat :=
  365 * (year - 1) + (year - 1) / 4 - (year - 1) / 100 + (year - 1) / 400

/-- The days of the first `n` of some months. -/
def daysOf : Nat → List Nat → Nat
  | n + 1, length :: rest => length + daysOf n rest
  | _, _ => 0

def dayNumber (date : Date) : Nat :=
  daysBefore date.year + daysOf (date.month - 1) (months (isLeap date.year)) + (date.day - 1)

/-- The year of a day. The mean length of a year gives it up to one. -/
def yearOf (day : Nat) : Nat :=
  let guess := day * 400 / 146097 + 1
  if daysBefore (guess + 1) ≤ day then guess + 1
  else if day < daysBefore guess then guess - 1
  else guess

/-- The month, counted on from `month`, and the day of the month of a day of these months. -/
def monthOf (month : Nat) : List Nat → Nat → Nat × Nat
  | [], day => (month, day + 1)
  | length :: rest, day =>
    if day < length then (month, day + 1) else monthOf (month + 1) rest (day - length)

def dateOf (day : Nat) : Date :=
  let year := yearOf day
  let (month, ofMonth) := monthOf 1 (months (isLeap year)) (day - daysBefore year)
  { year, month, day := ofMonth }

end Calendar
end MoteLink
