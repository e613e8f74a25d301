import Mathlib.Algebra.BigOperators.Intervals
import Mathlib.Algebra.Order.BigOperators.Group.Finset
import Mathlib.Algebra.Order.Group.Unbundled.Int
import Mathlib.Data.Int.ConditionallyCompleteOrder
import Mathlib.Tactic.IntervalCases

/-!
# The Gregorian calendar

The proleptic Gregorian calendar, over all years: the length of its months, the date after a date,
and the number of a day counted from 1970-01-01. The number is 0 on that date and increases by one
from each date to the next.
-/

namespace CivilCalendar

def IsLeap (year : ℤ) : Prop := year % 4 = 0 ∧ (year % 100 ≠ 0 ∨ year % 400 = 0)

instance decidableIsLeap (year : ℤ) : Decidable (IsLeap year) := by
  unfold IsLeap
  infer_instance

def daysInMonth (year : ℤ) (month : ℕ) : ℕ :=
  if month = 2 then if IsLeap year then 29 else 28
  else if month = 4 ∨ month = 6 ∨ month = 9 ∨ month = 11 then 30
  else 31

@[ext] structure Date where
  year : ℤ
  month : ℕ
  day : ℕ
  month_pos : 1 ≤ month
  month_le : month ≤ 12
  day_pos : 1 ≤ day
  day_le : day ≤ daysInMonth year month

theorem one_le_daysInMonth (year : ℤ) (month : ℕ) : 1 ≤ daysInMonth year month := by
  unfold daysInMonth
  split_ifs <;> omega

theorem Date.day_le_thirtyOne (d : Date) : d.day ≤ 31 := by
  refine d.day_le.trans ?_
  unfold daysInMonth
  split_ifs <;> decide

def Date.next (d : Date) : Date :=
  if h : d.day < daysInMonth d.year d.month then
    ⟨d.year, d.month, d.day + 1, d.month_pos, d.month_le, Nat.le_add_left 1 d.day, h⟩
  else if h' : d.month < 12 then
    ⟨d.year, d.month + 1, 1, Nat.le_add_left 1 d.month, h', le_rfl, one_le_daysInMonth _ _⟩
  else
    ⟨d.year + 1, 1, 1, le_rfl, by decide, le_rfl, one_le_daysInMonth _ _⟩

def epoch : Date := ⟨1970, 1, 1, le_rfl, by decide, le_rfl, one_le_daysInMonth _ _⟩

/-- The days in front of a year, from the first day of the year 1. -/
def daysBeforeYear (year : ℤ) : ℤ :=
  365 * (year - 1) + (year - 1) / 4 - (year - 1) / 100 + (year - 1) / 400

def daysBeforeMonth (year : ℤ) (month : ℕ) : ℕ := ∑ k ∈ Finset.Ico 1 month, daysInMonth year k

/-- The number of a day, counted from 1970-01-01. -/
def dayNumber (d : Date) : ℤ :=
  daysBeforeYear d.year - daysBeforeYear 1970 + daysBeforeMonth d.year d.month + d.day - 1

theorem daysBeforeYear_succ (year : ℤ) :
    daysBeforeYear (year + 1) = daysBeforeYear year + if IsLeap year then 366 else 365 := by
  unfold daysBeforeYear IsLeap
  split_ifs <;> omega

theorem daysBeforeMonth_succ (year : ℤ) {month : ℕ} (h : 1 ≤ month) :
    daysBeforeMonth year (month + 1) = daysBeforeMonth year month + daysInMonth year month :=
  Finset.sum_Ico_succ_top h _

theorem daysBeforeMonth_eq (year : ℤ) (month : ℕ) (hpos : 1 ≤ month) (hle : month ≤ 13) :
    daysBeforeMonth year month =
      if month ≤ 2 then 31 * (month - 1)
      else (153 * (month - 3) + 2) / 5 + if IsLeap year then 60 else 59 := by
  unfold daysBeforeMonth daysInMonth
  by_cases hleap : IsLeap year <;> simp only [hleap, if_true, if_false] <;>
    interval_cases month <;> rfl

theorem dayNumber_epoch : dayNumber epoch = 0 := by decide

theorem dayNumber_next (d : Date) : dayNumber d.next = dayNumber d + 1 := by
  have hmonth := d.month_pos
  have hle := d.month_le
  have hday := d.day_le
  unfold Date.next
  split_ifs with hlast hdec
  · unfold dayNumber
    push_cast
    omega
  · unfold dayNumber
    rw [daysBeforeMonth_succ _ hmonth]
    push_cast
    omega
  · -- the last day of a year
    have hmonth : d.month = 12 := by omega
    have hyear := daysBeforeMonth_eq d.year 13 (by decide) le_rfl
    have hfirst : daysBeforeMonth (d.year + 1) 1 = 0 := rfl
    rw [daysBeforeMonth_succ _ (by decide), if_neg (by decide)] at hyear
    rw [hmonth] at hday hlast
    unfold dayNumber
    dsimp only
    rw [daysBeforeYear_succ, hfirst, hmonth]
    split_ifs at hyear ⊢ <;> omega

theorem daysBeforeMonth_mono (year : ℤ) {month month' : ℕ} (h : month ≤ month') :
    daysBeforeMonth year month ≤ daysBeforeMonth year month' :=
  Finset.sum_le_sum_of_subset (Finset.Ico_subset_Ico_right h)

theorem daysBeforeYear_strictMono : StrictMono daysBeforeYear := by
  refine strictMono_int_of_lt_succ fun year => ?_
  rw [daysBeforeYear_succ]
  split_ifs <;> omega

theorem Date.le_daysBeforeMonth_succ (d : Date) :
    daysBeforeMonth d.year d.month + d.day ≤ daysBeforeMonth d.year (d.month + 1) := by
  rw [daysBeforeMonth_succ _ d.month_pos]
  exact Nat.add_le_add_left d.day_le _

theorem Date.dayNumber_lt (d : Date) :
    dayNumber d < daysBeforeYear (d.year + 1) - daysBeforeYear 1970 := by
  have hmonth := d.le_daysBeforeMonth_succ
  have hyear := daysBeforeMonth_mono d.year (show d.month + 1 ≤ 13 from Nat.succ_le_succ d.month_le)
  have hlength := daysBeforeMonth_eq d.year 13 (by decide) le_rfl
  rw [if_neg (by decide)] at hlength
  rw [dayNumber, daysBeforeYear_succ]
  split_ifs at hlength ⊢ <;> omega

theorem Date.le_dayNumber (d : Date) :
    daysBeforeYear d.year - daysBeforeYear 1970 ≤ dayNumber d := by
  have hday := d.day_pos
  rw [dayNumber]
  omega

theorem dayNumber_injective : Function.Injective dayNumber := by
  intro d d' heq
  have hyear (e e' : Date) (he : dayNumber e = dayNumber e') : e.year ≤ e'.year := by
    by_contra hlt
    have hmono := daysBeforeYear_strictMono.monotone (show e'.year + 1 ≤ e.year by omega)
    have hupper := e'.dayNumber_lt
    have hlower := e.le_dayNumber
    omega
  have hyears : d.year = d'.year := le_antisymm (hyear d d' heq) (hyear d' d heq.symm)
  have hmonth (e e' : Date) (hy : e.year = e'.year) (he : dayNumber e = dayNumber e') :
      e.month ≤ e'.month := by
    by_contra hlt
    have hmono := daysBeforeMonth_mono e'.year (show e'.month + 1 ≤ e.month by omega)
    have hupper := e'.le_daysBeforeMonth_succ
    have hlower := e.day_pos
    rw [dayNumber, dayNumber, hy] at he
    omega
  have hmonths : d.month = d'.month :=
    le_antisymm (hmonth d d' hyears heq) (hmonth d' d hyears.symm heq.symm)
  have hdays : d.day = d'.day := by
    rw [dayNumber, dayNumber, hyears, hmonths] at heq
    omega
  exact Date.ext hyears hmonths hdays

end CivilCalendar
