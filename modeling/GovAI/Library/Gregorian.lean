import Mathlib.Algebra.Order.Ring.Int

/-!
# The Gregorian calendar

The proleptic calendar: the lengths of the months, the dates of the years from 1 on, and the number
of a day counted from 1970-01-01.
-/

namespace GovAI.Gregorian

/-- A leap year is divisible by 4, and by 400 if by 100. -/
def IsLeap (year : ℕ) : Prop := 4 ∣ year ∧ (100 ∣ year → 400 ∣ year)

instance (year : ℕ) : Decidable (IsLeap year) := inferInstanceAs (Decidable (_ ∧ _))

/-- The lengths of the months of a year. -/
def monthLengths (year : ℕ) : List ℕ :=
  [31, if IsLeap year then 29 else 28, 31, 30, 31, 30, 31, 31, 30, 31, 30, 31]

/-- There is such a date. -/
structure IsDate (year month day : ℕ) : Prop where
  year_pos : 1 ≤ year
  month_pos : 1 ≤ month
  month_le : month ≤ 12
  day_pos : 1 ≤ day
  day_le : ∀ n ∈ (monthLengths year)[month - 1]?, day ≤ n

/-- The days from the first of January of the year 1 to that of a year. -/
def daysBeforeYear (year : ℕ) : ℕ :=
  365 * (year - 1) + (year - 1) / 4 - (year - 1) / 100 + (year - 1) / 400

/-- The number of a day; that of 1970-01-01 is zero. -/
def dayNumber (year month day : ℕ) : ℤ :=
  (daysBeforeYear year + ((monthLengths year).take (month - 1)).sum + (day - 1) : ℕ) - 719162

example : dayNumber 1970 1 1 = 0 ∧ dayNumber 2024 2 29 = 19782 := by decide

end GovAI.Gregorian
