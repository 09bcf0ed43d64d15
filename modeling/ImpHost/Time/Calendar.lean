/-!
Days of the Gregorian calendar, extended to all years. A day is counted from the first of January
1970; `Date.ofDay` and `Date.toDay` go between the count and the year, month and day of the month.
Both count years from March on, so that the leap day is the last of its year.
-/

namespace ImpHost

/-- A day by its year, month and day of the month, both counted from one. -/
structure Date where
  year : Int
  month : Nat
  day : Nat
deriving DecidableEq

namespace Date

/-- The days of 400 years. -/
def cycleDays : Nat := 146097

/-- The days from the first of March of the year 0 to the first of January 1970. -/
def epochDay : Int := 719468

/-- The date of a day. -/
def ofDay (n : Int) : Date :=
  let cycle := (n + epochDay) / cycleDays
  let dayOfCycle := ((n + epochDay) % cycleDays).toNat
  let yearOfCycle :=
    (dayOfCycle - dayOfCycle / 1460 + dayOfCycle / 36524 - dayOfCycle / 146096) / 365
  let dayOfYear := dayOfCycle - (365 * yearOfCycle + yearOfCycle / 4 - yearOfCycle / 100)
  let fromMarch := (5 * dayOfYear + 2) / 153
  let month := if fromMarch < 10 then fromMarch + 3 else fromMarch - 9
  ⟨400 * cycle + yearOfCycle + (if month ≤ 2 then 1 else 0), month,
    dayOfYear - (153 * fromMarch + 2) / 5 + 1⟩

/-- The day of a date. -/
def toDay (d : Date) : Int :=
  let year := if d.month ≤ 2 then d.year - 1 else d.year
  let yearOfCycle := (year % 400).toNat
  let fromMarch := if d.month ≤ 2 then d.month + 9 else d.month - 3
  let dayOfYear := (153 * fromMarch + 2) / 5 + d.day - 1
  let dayOfCycle := 365 * yearOfCycle + yearOfCycle / 4 - yearOfCycle / 100 + dayOfYear
  year / 400 * cycleDays + dayOfCycle - epochDay

/-- Whether a year has a leap day. -/
def isLeapYear (year : Int) : Bool :=
  year % 4 == 0 && (year % 100 != 0 || year % 400 == 0)

/-- The number of days of a month. -/
def daysOfMonth (year : Int) (month : Nat) : Nat :=
  if month = 2 then if isLeapYear year then 29 else 28
  else if month = 4 ∨ month = 6 ∨ month = 9 ∨ month = 11 then 30
  else 31

/-- Whether the calendar has the date. -/
def isValid (d : Date) : Bool :=
  1 ≤ d.month && d.month ≤ 12 && 1 ≤ d.day && d.day ≤ daysOfMonth d.year d.month

end Date

end ImpHost
