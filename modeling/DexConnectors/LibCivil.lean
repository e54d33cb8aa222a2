import Mathlib.Algebra.Group.Int.Defs
import Mathlib.Algebra.GroupWithZero.Nat
import Mathlib.Tactic.SplitIfs
/-!
# LibCivil — dates and clock times of the proleptic Gregorian calendar

A `Civil` is what a wall clock shows, to the second; `Civil.seconds` counts the seconds from the start of year one.  An
invalid date cannot be built.
-/
namespace Lib

def isLeapYear (year : Int) : Bool := year % 4 == 0 && (year % 100 != 0 || year % 400 == 0)

def daysIn (year : Int) (month : Nat) : Nat :=
  if month = 2 then (if isLeapYear year then 29 else 28)
  else if month = 4 ∨ month = 6 ∨ month = 9 ∨ month = 11 then 30
  else 31

/-- The days of the year before a month. -/
def daysBefore (year : Int) (month : Nat) : Nat := ((List.range' 1 (month - 1)).map (daysIn year)).sum

/-- The days from the start of year one. -/
def dayNumber (year : Int) (month day : Nat) : Int :=
  365 * (year - 1) + (year - 1) / 4 - (year - 1) / 100 + (year - 1) / 400 + daysBefore year month + day - 1

def isDate (year : Int) (month day : Nat) : Bool := 1 ≤ month && month ≤ 12 && 1 ≤ day && day ≤ daysIn year month

def isClock (hour minute second : Nat) : Bool := hour ≤ 23 && minute ≤ 59 && second ≤ 59

structure Civil where
  year   : Int
  month  : Nat
  day    : Nat
  hour   : Nat
  minute : Nat
  second : Nat
  date   : isDate year month day = true
  clock  : isClock hour minute second = true
  deriving DecidableEq

def Civil.seconds (c : Civil) : Int :=
  86400 * dayNumber c.year c.month c.day + 3600 * c.hour + 60 * c.minute + c.second

/-- The first second of year one. -/
def yearOneStart : Civil := ⟨1, 1, 1, 0, 0, 0, by decide, by decide⟩

theorem seconds_yearOneStart : yearOneStart.seconds = 0 := by decide

theorem Civil.month_le (c : Civil) : c.month ≤ 12 := by
  have h := c.date
  simp only [isDate, Bool.and_eq_true, decide_eq_true_eq] at h
  exact h.1.1.2

theorem daysIn_le (year : Int) (month : Nat) : daysIn year month ≤ 31 := by
  unfold daysIn
  split_ifs <;> omega

theorem Civil.day_le (c : Civil) : c.day ≤ 31 := by
  have h := c.date
  simp only [isDate, Bool.and_eq_true, decide_eq_true_eq] at h
  exact Nat.le_trans h.2 (daysIn_le c.year c.month)

theorem Civil.clock_le (c : Civil) : c.hour ≤ 23 ∧ c.minute ≤ 59 ∧ c.second ≤ 59 := by
  have h := c.clock
  simp only [isClock, Bool.and_eq_true, decide_eq_true_eq] at h
  exact ⟨h.1.1, h.1.2, h.2⟩

end Lib
