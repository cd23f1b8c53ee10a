/-!
Dates of the proleptic Gregorian calendar and their distance in days from 1970-01-01.

Years are counted from March, so that a leap day is the last of its year; 400 years are one cycle
of 146097 days.
-/

namespace Gatehouse

structure Date where
  year : Int
  month : Nat
  day : Nat
  deriving DecidableEq, Repr

namespace Date

def isLeapYear (year : Int) : Bool := year % 4 = 0 ∧ (year % 100 ≠ 0 ∨ year % 400 = 0)

def daysInMonth (year : Int) (month : Nat) : Nat :=
  if month = 2 then (if isLeapYear year then 29 else 28)
  else if month = 4 ∨ month = 6 ∨ month = 9 ∨ month = 11 then 30
  else 31

/-- The first and the last year of the calendar. -/
def firstYear : Int := -262143

@[inherit_doc firstYear]
def lastYear : Int := 262142

def IsValid (d : Date) : Prop :=
  firstYear ≤ d.year ∧ d.year ≤ lastYear ∧ 1 ≤ d.month ∧ d.month ≤ 12 ∧
    1 ≤ d.day ∧ d.day ≤ daysInMonth d.year d.month

instance (d : Date) : Decidable d.IsValid := by unfold IsValid; infer_instance

/-- Days from 1970-01-01 to a date, negative before it. -/
def toDays (d : Date) : Int :=
  let y := if d.month ≤ 2 then d.year - 1 else d.year
  let m : Int := if d.month ≤ 2 then d.month + 9 else d.month - 3
  let era := y / 400
  let yearOfEra := y % 400
  let dayOfYear := (153 * m + 2) / 5 + d.day - 1
  let dayOfEra := yearOfEra * 365 + yearOfEra / 4 - yearOfEra / 100 + dayOfYear
  era * 146097 + dayOfEra - 719468

def ofDays (days : Int) : Date :=
  let z := days + 719468
  let era := z / 146097
  let dayOfEra := z % 146097
  let yearOfEra := (dayOfEra - dayOfEra / 1460 + dayOfEra / 36524 - dayOfEra / 146096) / 365
  let dayOfYear := dayOfEra - (365 * yearOfEra + yearOfEra / 4 - yearOfEra / 100)
  let m := (5 * dayOfYear + 2) / 153
  let day := dayOfYear - (153 * m + 2) / 5 + 1
  let month := if m < 10 then m + 3 else m - 9
  let year := yearOfEra + era * 400 + (if month ≤ 2 then 1 else 0)
  ⟨year, month.toNat, day.toNat⟩

example : toDays ⟨1970, 1, 1⟩ = 0 ∧ toDays ⟨2000, 3, 1⟩ = 11017 ∧ ofDays 11016 = ⟨2000, 2, 29⟩ := by
  decide

end Date
end Gatehouse
