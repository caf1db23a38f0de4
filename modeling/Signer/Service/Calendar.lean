import Mathlib.Algebra.BigOperators.Group.Finset.Basic
import Mathlib.Tactic.IntervalCases

/-!
# The proleptic Gregorian calendar

Years that start in March are the unit of the usual conversion from day numbers, since the leap
day is then the last of its year.
-/

namespace Signer.Calendar

/-- One in a leap year. -/
def leapDay (year : ℕ) : ℕ := if 4 ∣ year ∧ (¬ 100 ∣ year ∨ 400 ∣ year) then 1 else 0

def monthLength (year month : ℕ) : ℕ :=
  if month = 2 then 28 + leapDay year else if month ∈ [4, 6, 9, 11] then 30 else 31

/-- The days before a date, from 1 January of the year 0. -/
def dayNumber (year month day : ℕ) : ℕ :=
  ∑ y ∈ Finset.range year, ∑ m ∈ Finset.range 12, monthLength y (m + 1) +
    ∑ m ∈ Finset.range (month - 1), monthLength year (m + 1) + (day - 1)

def ValidDate (year month day : ℕ) : Prop :=
  1 ≤ month ∧ month ≤ 12 ∧ 1 ≤ day ∧ day ≤ monthLength year month

theorem dayNumber_march_succ (year : ℕ) :
    dayNumber (year + 1) 3 1 = dayNumber year 3 1 + 365 + leapDay (year + 1) := by
  simp [dayNumber, Finset.sum_range_succ, monthLength]
  omega

/-- The number of 1 March in closed form. -/
theorem dayNumber_march (year : ℕ) :
    dayNumber year 3 1 + year / 100 = 365 * year + year / 4 + year / 400 + 60 := by
  induction year with
  | zero => decide
  | succ year ih =>
    rw [dayNumber_march_succ, leapDay]
    split <;> omega

/-- A date by its month, counted from March, and its day: the months before it have `(153 * month +
2) / 5` days. -/
theorem dayNumber_of_march {month : ℕ} (h : month ≤ 11) (year day : ℕ) :
    dayNumber (if month < 10 then year else year + 1)
        (if month < 10 then month + 3 else month - 9) (day + 1) =
      dayNumber year 3 1 + (153 * month + 2) / 5 + day := by
  interval_cases month <;> simp [dayNumber, Finset.sum_range_succ, monthLength] <;> omega

theorem validDate_of_march {month day year : ℕ} (h : month ≤ 11)
    (hday : (153 * month + 2) / 5 + day < 365 + leapDay (year + 1))
    (hmonth : (5 * ((153 * month + 2) / 5 + day) + 2) / 153 = month) :
    ValidDate (if month < 10 then year else year + 1)
      (if month < 10 then month + 3 else month - 9) (day + 1) := by
  interval_cases month <;> simp [ValidDate, monthLength] at hday ⊢ <;> omega

end Signer.Calendar
