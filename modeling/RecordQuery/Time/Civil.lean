/-!
# Civil time

The date and time of day in UTC of a moment, which is given in nanoseconds since the start of 1970.
The calendar is the Gregorian one, extended to all years.
-/

namespace RecordQuery

/-- Nanoseconds since the start of 1970. -/
abbrev Moment := Int

/-- A date with its place in the year and in the week, and a time of day. -/
structure Civil where
  year : Int
  /-- From 1 to 12. -/
  month : Nat
  /-- From 1. -/
  day : Nat
  /-- The day of the year, from 1. -/
  ordinal : Nat
  /-- Days since Sunday. -/
  weekday : Nat
  hour : Nat
  minute : Nat
  second : Nat
  nanosecond : Nat
  /-- Whole seconds since the start of 1970. -/
  timestamp : Int

namespace Civil

/-- The year, month and day of a day counted from the start of 1970. The count is moved to years that
begin in March, so that the day which some years lack is the last one. -/
def ofDays (days : Int) : Int × Nat × Nat :=
  let shifted := days + 719468
  let era := shifted / 146097
  let dayOfEra := (shifted % 146097).toNat
  let yearOfEra := (dayOfEra - dayOfEra / 1460 + dayOfEra / 36524 - dayOfEra / 146096) / 365
  let dayOfYear := dayOfEra - (365 * yearOfEra + yearOfEra / 4 - yearOfEra / 100)
  let monthFromMarch := (5 * dayOfYear + 2) / 153
  let day := dayOfYear - (153 * monthFromMarch + 2) / 5 + 1
  let month := if monthFromMarch < 10 then monthFromMarch + 3 else monthFromMarch - 9
  let year := era * 400 + Int.ofNat yearOfEra + if month ≤ 2 then 1 else 0
  (year, month, day)

/-- The day, counted from the start of 1970, on which a year begins. -/
def yearStart (year : Int) : Int :=
  let before := year - 1
  365 * before + before / 4 - before / 100 + before / 400 - 719162

/-- The date and time of a moment. -/
def ofMoment (moment : Moment) : Civil :=
  let timestamp := moment / 1000000000
  let days := timestamp / 86400
  let secondOfDay := (timestamp % 86400).toNat
  let (year, month, day) := ofDays days
  { year, month, day
    ordinal := (days - yearStart year).toNat + 1
    weekday := ((days + 4) % 7).toNat
    hour := secondOfDay / 3600
    minute := secondOfDay / 60 % 60
    second := secondOfDay % 60
    nanosecond := (moment % 1000000000).toNat
    timestamp }

/-- Days since Monday. -/
def weekdayFromMonday (c : Civil) : Nat := (c.weekday + 6) % 7

/-- The hour on a dial of twelve. -/
def hour12 (c : Civil) : Nat := if c.hour % 12 = 0 then 12 else c.hour % 12

/-- The week of the year, where weeks begin on a day that was some days ago. -/
def weekSince (c : Civil) (daysAgo : Nat) : Nat := (c.ordinal + 6 - daysAgo) / 7

/-- How many ISO weeks a year has: those with a Thursday in the year. -/
def isoWeeks (year : Int) : Nat :=
  let first := ((yearStart year + 3) % 7).toNat
  let last := ((yearStart (year + 1) + 2) % 7).toNat
  if first = 3 ∨ last = 3 then 53 else 52

/-- The ISO year and week: weeks begin on Monday and belong to the year of their Thursday. -/
def isoWeek (c : Civil) : Int × Nat :=
  let week := (c.ordinal + 9 - c.weekdayFromMonday) / 7
  if week = 0 then (c.year - 1, isoWeeks (c.year - 1))
  else if isoWeeks c.year < week then (c.year + 1, 1)
  else (c.year, week)

end Civil

end RecordQuery
