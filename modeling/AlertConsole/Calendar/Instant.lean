import AlertConsole.Calendar.Date
import AlertConsole.Number.Digits

/-!
# Instants

An `Instant` counts seconds from 1970-01-01T00:00:00Z and nanoseconds within the second. Inside a
leap second the nanoseconds go on from a full second, so that such an instant lies between the
second before it and the second after it. Dates and clock times are those of an offset east of UTC,
in seconds.
-/

namespace AlertConsole.Calendar

open Number (padded)

structure Instant where
  seconds : Int
  nanos : Nat
  deriving DecidableEq

namespace Instant

def secondsPerDay : Int := 86400

/-- The first and the last second that has a date. -/
def minSeconds : Int := (Date.mk (-262143) 1 1).dayNumber * secondsPerDay
def maxSeconds : Int := (Date.mk 262142 12 31).dayNumber * secondsPerDay + (secondsPerDay - 1)

def inRange (seconds : Int) : Bool :=
  minSeconds ≤ seconds && seconds ≤ maxSeconds

/-- The instant of a count of seconds, if it has a date. -/
def ofSeconds? (seconds : Int) : Option Instant :=
  if inRange seconds then some ⟨seconds, 0⟩ else none

/-- Order of time. -/
def le (a b : Instant) : Bool :=
  a.seconds < b.seconds || (a.seconds == b.seconds && a.nanos ≤ b.nanos)

/-! ## Clock and calendar -/

def isLeapSecond (t : Instant) : Bool :=
  1000000000 ≤ t.nanos

def date (t : Instant) (offset : Int) : Date :=
  Date.ofDayNumber ((t.seconds + offset) / secondsPerDay)

def secondOfDay (t : Instant) (offset : Int) : Nat :=
  ((t.seconds + offset) % secondsPerDay).toNat

def hour (t : Instant) (offset : Int) : Nat :=
  t.secondOfDay offset / 3600

def minute (t : Instant) (offset : Int) : Nat :=
  t.secondOfDay offset / 60 % 60

/-- The second on the clock; a leap second is counted after the second that it follows. -/
def second (t : Instant) (offset : Int) : Nat :=
  t.secondOfDay offset % 60 + if t.isLeapSecond then 1 else 0

/-! ## Text -/

/-- Four digits for the years 0 to 9999, otherwise a sign and at least four digits. -/
def yearText (year : Int) : String :=
  if 0 ≤ year ∧ year ≤ 9999 then padded 4 year.toNat
  else (if year < 0 then "-" else "+") ++ padded 4 year.natAbs

/-- Hour from 1 to 12, minute and second, none of them padded. -/
def twelveHourText (t : Instant) (offset : Int) : String :=
  let hour := t.hour offset % 12
  let parts := [if hour = 0 then 12 else hour, t.minute offset, t.second offset]
  ":".intercalate (parts.map toString)

def halfDayText (t : Instant) (offset : Int) : String :=
  if t.hour offset < 12 then "AM" else "PM"

/-- No fraction, or the fewest of 3, 6 or 9 digits that are exact. -/
def fractionText (nanos : Nat) : String :=
  if nanos = 0 then ""
  else if nanos % 1000000 = 0 then "." ++ padded 3 (nanos / 1000000)
  else if nanos % 1000 = 0 then "." ++ padded 6 (nanos / 1000)
  else "." ++ padded 9 nanos

/-- Date and time in UTC, with `zone` as the designation of UTC. -/
def utcText (t : Instant) (zone : String) : String :=
  let d := t.date 0
  s!"{yearText d.year}-{padded 2 d.month}-{padded 2 d.day}T" ++
    s!"{padded 2 (t.hour 0)}:{padded 2 (t.minute 0)}:{padded 2 (t.second 0)}" ++
    fractionText (t.nanos % 1000000000) ++ zone

end Instant

end AlertConsole.Calendar
