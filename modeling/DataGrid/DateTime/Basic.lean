/-!
# Dates with a time of day

A `DateTime` is a day of the Gregorian calendar, extended to the years before its introduction, and
a time of day without a zone.

* `DateTime.ofFields?` builds one from its fields if they name an existing moment.
* The nanoseconds of a second may fill it and run on for another one. So does a leap second, which
  is second 59 with a thousand million nanoseconds or more.
* `DateTime.order` compares two moments field by field, the greatest unit first.
-/

namespace DataGrid

/-- Whether February has 29 days. -/
def isLeapYear (year : Int) : Bool := year % 4 == 0 && (year % 100 != 0 || year % 400 == 0)

/-- The number of days of a month. -/
def daysInMonth (year : Int) (month : Nat) : Nat :=
  if month = 2 then (if isLeapYear year then 29 else 28)
  else if month = 4 ∨ month = 6 ∨ month = 9 ∨ month = 11 then 30
  else 31

namespace DateTime

/-- The first year of the calendar. -/
def firstYear : Int := -262143

/-- The last year of the calendar. -/
def lastYear : Int := 262142

/-- The nanoseconds of a second. -/
def nanosPerSecond : Nat := 1000000000

/-- The fields of a moment, in range or not. -/
structure Fields where
  /-- the year, zero and negative ones included -/
  year : Int
  /-- the month, from 1 -/
  month : Nat
  /-- the day of the month, from 1 -/
  day : Nat
  /-- the hour of the day -/
  hour : Nat
  /-- the minute of the hour -/
  minute : Nat
  /-- the second of the minute -/
  second : Nat
  /-- the nanosecond of the second, which may run on beyond it -/
  nano : Nat
  deriving DecidableEq

/-- Whether the fields name an existing moment. -/
def Fields.Valid (f : Fields) : Prop :=
  firstYear ≤ f.year ∧ f.year ≤ lastYear ∧ 1 ≤ f.month ∧ f.month ≤ 12 ∧ 1 ≤ f.day
    ∧ f.day ≤ daysInMonth f.year f.month ∧ f.hour < 24 ∧ f.minute < 60 ∧ f.second < 60
    ∧ f.nano < 2 * nanosPerSecond

instance (f : Fields) : Decidable f.Valid := by unfold Fields.Valid; infer_instance

end DateTime

/-- A moment of the calendar without a zone. -/
structure DateTime where
  /-- its fields -/
  fields : DateTime.Fields
  /-- the fields name an existing moment -/
  valid : fields.Valid
  deriving DecidableEq

namespace DateTime

/-- The moment that the fields name. -/
def ofFields? (f : Fields) : Option DateTime := if h : f.Valid then some ⟨f, h⟩ else none

/-- The order in time. -/
def order (a b : DateTime) : Ordering :=
  (compare a.fields.year b.fields.year).then <|
  (compare a.fields.month b.fields.month).then <|
  (compare a.fields.day b.fields.day).then <|
  (compare a.fields.hour b.fields.hour).then <|
  (compare a.fields.minute b.fields.minute).then <|
  (compare a.fields.second b.fields.second).then <|
  compare a.fields.nano b.fields.nano

/-- The day after a day. -/
def Fields.nextDay (f : Fields) : Fields :=
  if f.day < daysInMonth f.year f.month then { f with day := f.day + 1 }
  else if f.month < 12 then { f with month := f.month + 1, day := 1 }
  else { f with year := f.year + 1, month := 1, day := 1 }

/-- The day before a day. -/
def Fields.previousDay (f : Fields) : Fields :=
  if 1 < f.day then { f with day := f.day - 1 }
  else if 1 < f.month then
    { f with month := f.month - 1, day := daysInMonth f.year (f.month - 1) }
  else { f with year := f.year - 1, month := 12, day := 31 }

/-- The moment at offset zero that is written with a number of minutes ahead of it, less than a
day. -/
def Fields.toOffsetZero (f : Fields) (ahead : Int) : Fields :=
  let minutes : Int := f.hour * 60 + f.minute - ahead
  let moved := if minutes < 0 then f.previousDay else if minutes < 1440 then f else f.nextDay
  let ofDay := (minutes % 1440).toNat
  { moved with hour := ofDay / 60, minute := ofDay % 60 }

/-! ## Small facts -/

/-- The fields of a moment name it. -/
theorem ofFields?_fields (d : DateTime) : ofFields? d.fields = some d := by
  simp [ofFields?, d.valid]

end DateTime

end DataGrid
