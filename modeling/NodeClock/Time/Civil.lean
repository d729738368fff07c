import NodeClock.Text.Decimal

/-!
# Civil times

A date of the Gregorian calendar, extended to all years, with a time of day.

* `Civil`, `Civil.Field`: the six fields and their values.
* `monthLength`, `Civil.Valid`: which values name a second that exists.
* `Civil.order`: earlier fields count more.
* `Civil.display`: `year-month-day hour:minute:second`.
-/

namespace NodeClock

/-- A date and time of day, in no particular time zone. -/
structure Civil where
  year : Int
  month : Nat
  day : Nat
  hour : Nat
  minute : Nat
  second : Nat
  deriving DecidableEq, Repr

/-- Every fourth year is a leap year, save the centuries that 400 does not divide. -/
def isLeap (year : Int) : Bool := year % 4 == 0 && (year % 100 != 0 || year % 400 == 0)

/-- The number of days of a month, `0` for a month that does not exist. -/
def monthLength (year : Int) (month : Nat) : Nat :=
  match month with
  | 1 | 3 | 5 | 7 | 8 | 10 | 12 => 31
  | 4 | 6 | 9 | 11 => 30
  | 2 => if isLeap year then 29 else 28
  | _ => 0

namespace Civil

/-- The six fields, in the order of their weight. -/
inductive Field where
  | year | month | day | hour | minute | second
  deriving DecidableEq, Repr

namespace Field

/-- All fields, the weightiest first. -/
def all : List Field := [year, month, day, hour, minute, second]

/-- The short name of a field in query pairs. -/
def key : Field → String
  | year => "y"
  | month => "mo"
  | day => "d"
  | hour => "h"
  | minute => "mi"
  | second => "se"

/-- The field with this short name. -/
def ofKey? (k : String) : Option Field := all.find? (·.key == k)

/-- The least and the greatest value a field may have. -/
def range : Field → Int × Int
  | year => (0, 9999)
  | month => (1, 12)
  | day => (1, 31)
  | hour => (0, 23)
  | minute => (0, 59)
  | second => (0, 59)

/-- Whether a value lies in the range of its field. -/
def admits (f : Field) (v : Int) : Bool := f.range.1 ≤ v && v ≤ f.range.2

theorem mem_all (f : Field) : f ∈ all := by cases f <;> decide

theorem ofKey?_key (f : Field) : ofKey? f.key = some f := by cases f <;> decide

end Field

/-- The value of one field. -/
def get (t : Civil) : Field → Int
  | .year => t.year
  | .month => t.month
  | .day => t.day
  | .hour => t.hour
  | .minute => t.minute
  | .second => t.second

/-- A date that the calendar has and a time that a day without leap second has. -/
def Valid (t : Civil) : Prop :=
  1 ≤ t.day ∧ t.day ≤ monthLength t.year t.month ∧ t.hour < 24 ∧ t.minute < 60 ∧ t.second < 60

instance (t : Civil) : Decidable t.Valid := by unfold Valid; infer_instance

/-- Field by field, the year first. -/
def order (a b : Civil) : Ordering :=
  (compare a.year b.year).then <| (compare a.month b.month).then <|
    (compare a.day b.day).then <| (compare a.hour b.hour).then <|
      (compare a.minute b.minute).then (compare a.second b.second)

/-- `2024-03-15 14:05:09`; the sign of a negative year counts as one of its four characters. -/
def display (t : Civil) : String :=
  Decimal.paddedInt 4 t.year ++ "-" ++ Decimal.padded 2 t.month ++ "-" ++ Decimal.padded 2 t.day ++
    " " ++ Decimal.padded 2 t.hour ++ ":" ++ Decimal.padded 2 t.minute ++ ":" ++
    Decimal.padded 2 t.second

end Civil

end NodeClock
