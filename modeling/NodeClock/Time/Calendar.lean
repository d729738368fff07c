import NodeClock.Time.Civil

/-!
# The calendar as a count of seconds

Days and seconds are counted from 1970-01-01 00:00:00. Years are taken to begin in March, so
that the leap day is the last day of its year, and in cycles of 400 years, after which the
calendar repeats.

* `dayNumber`, `ofDayNumber`: a date and its day.
* `Civil.seconds?`: the second of a civil time, if there is one.
* `Civil.ofSeconds`: the civil time of a second.
* `Civil.ofInstant`: the civil time of an instant in a zone.
* `Civil.secondsSince`: the difference of two civil times.
-/

namespace NodeClock

/-- Days in a cycle of 400 years. -/
def cycleDays : Nat := 146097

/-- Days from 0000-03-01, where the counted years begin, to 1970-01-01. -/
def epochDay : Int := 719468

/-- The day of a date, counted from 1970-01-01. -/
def dayNumber (year : Int) (month day : Nat) : Int :=
  let y := if month ≤ 2 then year - 1 else year
  let m := (month + 9) % 12
  y * 365 + y / 4 - y / 100 + y / 400 + ((153 * m + 2) / 5 + day - 1 : Nat) - epochDay

/-- The year, month and day of the day `n`, counted from 1970-01-01. -/
def ofDayNumber (n : Int) : Int × Nat × Nat :=
  let d := n + epochDay
  let cycle := d / cycleDays
  let inCycle := (d % cycleDays).toNat
  let century := min (inCycle / 36524) 3
  let inCentury := inCycle - century * 36524
  let quad := inCentury / 1461
  let inQuad := inCentury % 1461
  let single := min (inQuad / 365) 3
  let inYear := inQuad - single * 365
  let m := (5 * inYear + 2) / 153
  let day := inYear - (153 * m + 2) / 5 + 1
  let month := if m < 10 then m + 3 else m - 9
  let year := cycle * 400 + (century * 100 + quad * 4 + single : Nat)
  (if month ≤ 2 then year + 1 else year, month, day)

namespace Civil

/-- The second that the fields name, counted from 1970-01-01 00:00:00. -/
def seconds (t : Civil) : Int :=
  dayNumber t.year t.month t.day * 86400 + (t.hour * 3600 + t.minute * 60 + t.second : Nat)

/-- The second that the fields name, if they name one. -/
def seconds? (t : Civil) : Option Int := if t.Valid then some t.seconds else none

/-- The fields of a second, counted from 1970-01-01 00:00:00. -/
def ofSeconds (s : Int) : Civil :=
  let (year, month, day) := ofDayNumber (s / 86400)
  let r := (s % 86400).toNat
  { year, month, day, hour := r / 3600, minute := r / 60 % 60, second := r % 60 }

/-- The fields shown at second `secs` by a clock `offset` seconds east. A leap second is told by
`nanos` of a milliard and more, and shows the second it follows. -/
def ofInstant (secs : Int) (_nanos : Nat) (offset : Int) : Civil := ofSeconds (secs + offset)

/-- How many seconds `a` is later than `b`, if both name a second. -/
def secondsSince (a b : Civil) : Option Int := do return (← a.seconds?) - (← b.seconds?)

end Civil

end NodeClock
