import StackMachine.Decimal

/-!
Dates of the Gregorian calendar, carried back and forth without end, and timestamps in universal
time.

A date is found by counting from 1 March of the year zero, so that the leap day is the last day of a
year: days fall into eras of 400 years, an era into years, a year into months.
-/

namespace StackMachine.Calendar

structure Date where
  year : Nat
  month : Nat
  day : Nat
deriving DecidableEq, Repr

/-- Days of 400 years. -/
def daysPerEra : Nat := 146097

/-- Days from 1 March of the year zero to 1 January 1970. -/
def epochDay : Nat := 719468

/-- The year of an era, counted from March, in which a day of the era falls. -/
def yearOfEra (dayOfEra : Nat) : Nat :=
  (dayOfEra - dayOfEra / 1460 + dayOfEra / 36524 - dayOfEra / 146096) / 365

/-- Days of an era before one of its years. -/
def daysBeforeYear (yearOfEra : Nat) : Nat := 365 * yearOfEra + yearOfEra / 4 - yearOfEra / 100

/-- The day of its year, counted from 1 March. -/
def dayOfYear (dayOfEra : Nat) : Nat := dayOfEra - daysBeforeYear (yearOfEra dayOfEra)

/-- The month, counted from March, in which a day of the year falls. -/
def monthOfYear (dayOfYear : Nat) : Nat := (5 * dayOfYear + 2) / 153

/-- Days of a year before one of its months, both counted from March. -/
def daysBeforeMonth (monthOfYear : Nat) : Nat := (153 * monthOfYear + 2) / 5

/-- The date `days` days after 1 January 1970. -/
def Date.ofDays (days : Nat) : Date :=
  let fromMarch := days + epochDay
  let era := fromMarch / daysPerEra
  let dayOfEra := fromMarch % daysPerEra
  let dayOfYear := dayOfYear dayOfEra
  let monthOfYear := monthOfYear dayOfYear
  let month := if monthOfYear < 10 then monthOfYear + 3 else monthOfYear - 9
  let year := yearOfEra dayOfEra + 400 * era
  { year := if month ≤ 2 then year + 1 else year
    month
    day := dayOfYear - daysBeforeMonth monthOfYear + 1 }

/-- A reading of the clock: time since the start of 1970. -/
structure Instant where
  seconds : Int
  nanos : Nat
deriving DecidableEq, Repr

/-- A clock that stands before 1970 is read as the start of 1970. -/
def Instant.sinceEpoch (t : Instant) : Nat × Nat :=
  if t.seconds < 0 then (0, 0) else (t.seconds.toNat, t.nanos)

open Decimal in
/-- Date and time of day down to milliseconds. Years have at least four digits and are cut to 32
bits. -/
def Instant.timestamp (t : Instant) : String :=
  let (seconds, nanos) := t.sinceEpoch
  let date := Date.ofDays (seconds / 86400)
  let year := zeroPadded 4 date.year.toUInt32.toNat
  let month := zeroPadded 2 date.month
  let day := zeroPadded 2 date.day
  let hour := zeroPadded 2 (seconds / 3600 % 24)
  let minute := zeroPadded 2 (seconds / 60 % 60)
  let second := zeroPadded 2 (seconds % 60)
  let millis := zeroPadded 3 (nanos / 1000000)
  s!"{year}-{month}-{day} {hour}:{minute}:{second}.{millis}"

end StackMachine.Calendar
