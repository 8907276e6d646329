import MoteLink.Fault
import MoteLink.Time.Calendar

/-! Times with an offset from universal time, and the stamp that shows the universal time to the
millisecond. Instants count microseconds from the beginning of the year 1. -/

namespace MoteLink

structure Clocktime where
  date : Date
  hour : Nat
  minute : Nat
  second : Nat
  microsecond : Nat
  deriving DecidableEq, Repr

/-- A local time, ahead of universal time by `offset` microseconds. -/
structure ZonedTime where
  shown : Clocktime
  offset : Int
  deriving DecidableEq, Repr

namespace Clocktime

def microsecondsPerDay : Nat := 86400000000

def instant (t : Clocktime) : Nat :=
  Calendar.dayNumber t.date * microsecondsPerDay +
    ((t.hour * 60 + t.minute) * 60 + t.second) * 1000000 + t.microsecond

def ofInstant (n : Nat) : Clocktime :=
  let time := n % microsecondsPerDay
  { date := Calendar.dateOf (n / microsecondsPerDay)
    hour := time / 3600000000
    minute := time / 60000000 % 60
    second := time / 1000000 % 60
    microsecond := time % 1000000 }

end Clocktime

namespace ZonedTime
open Clocktime

/-- The first instant beyond the year 9999. -/
def lastInstant : Nat := Calendar.daysBefore 10000 * microsecondsPerDay

def instant (t : ZonedTime) : Int := t.shown.instant - t.offset

/-- The universal time, which must lie in the years 1 to 9999. -/
def universal (t : ZonedTime) : Except Fault Clocktime :=
  if 0 ≤ t.instant ∧ t.instant < lastInstant then .ok (ofInstant t.instant.toNat)
  else .error .dateRange

end ZonedTime

namespace Clocktime
open Text

/-- Year, month and day, then the time of day with milliseconds. The year is not filled up. -/
def stamp (t : Clocktime) : List Char :=
  decimal 1 t.date.year ++ '/' :: decimal 2 t.date.month ++ '/' :: decimal 2 t.date.day ++
    ' ' :: decimal 2 t.hour ++ ':' :: decimal 2 t.minute ++ ':' :: decimal 2 t.second ++
    '.' :: decimal 3 (t.microsecond / 1000)

end Clocktime

def ZonedTime.stamp (t : ZonedTime) : Except Fault String :=
  t.universal.map fun u => String.ofList u.stamp

end MoteLink
