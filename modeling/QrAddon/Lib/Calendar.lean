import Mathlib

/-!
# Gregorian dates

A date is a year, a month and a day that exist. Dates are ordered by year, month and
day, and numbered without gaps from the first day of the year 0, so that a difference of
numbers is a difference in days.

The lemmas say how many days lie between two dates of which only some components are
compared: at most so many (`sub_le_of_same_month`, `sub_le_of_next_month`), at least so
many (`le_sub_of_next_month`, `le_sub_of_later_month`, `le_sub_of_later_year`), or exactly
so many (`dayNumber_turn_of_year`).
-/

namespace Calendar

def IsLeap (year : ℕ) : Prop := year % 4 = 0 ∧ (year % 100 ≠ 0 ∨ year % 400 = 0)

instance (year : ℕ) : Decidable (IsLeap year) := inferInstanceAs (Decidable (_ ∧ _))

/-- The length of a month. There is no month 0 and none after 12. -/
def daysIn (year : ℕ) : ℕ → ℕ
  | 1 | 3 | 5 | 7 | 8 | 10 | 12 => 31
  | 4 | 6 | 9 | 11 => 30
  | 2 => if IsLeap year then 29 else 28
  | _ => 0

/-- The days of a year in front of a month. -/
def daysBefore (year month : ℕ) : ℕ := ∑ m ∈ Finset.range month, daysIn year m

/-- The days in front of a year. -/
def yearStart (year : ℕ) : ℕ := ∑ y ∈ Finset.range year, daysBefore y 13

theorem daysIn_le (year month : ℕ) : daysIn year month ≤ 31 := by
  unfold daysIn
  split <;> first | omega | split <;> omega

theorem le_daysIn (year : ℕ) {month : ℕ} (h : 1 ≤ month) (h' : month ≤ 12) :
    28 ≤ daysIn year month := by
  interval_cases month <;> simp only [daysIn] <;> first | omega | split <;> omega

theorem daysBefore_succ (year month : ℕ) :
    daysBefore year (month + 1) = daysBefore year month + daysIn year month :=
  Finset.sum_range_succ _ _

theorem daysBefore_mono (year : ℕ) : Monotone (daysBefore year) := by
  refine monotone_nat_of_le_succ ?_
  intro month
  rw [daysBefore_succ]
  exact Nat.le_add_right _ _

theorem yearStart_succ (year : ℕ) : yearStart (year + 1) = yearStart year + daysBefore year 13 :=
  Finset.sum_range_succ _ _

theorem yearStart_mono : Monotone yearStart := by
  refine monotone_nat_of_le_succ ?_
  intro year
  rw [yearStart_succ]
  exact Nat.le_add_right _ _

end Calendar

/-- A Gregorian date. -/
@[ext] structure CalendarDate where
  year : ℕ
  month : ℕ
  day : ℕ
  month_pos : 1 ≤ month
  month_le : month ≤ 12
  day_pos : 1 ≤ day
  day_le : day ≤ Calendar.daysIn year month

namespace CalendarDate

open Calendar

instance : LinearOrder CalendarDate :=
  LinearOrder.lift' (fun d => (toLex (d.year, toLex (d.month, d.day)) : ℕ ×ₗ ℕ ×ₗ ℕ)) (by
    intro d e h
    have h' : (d.year, toLex (d.month, d.day)) = (e.year, toLex (e.month, e.day)) :=
      toLex.injective h
    obtain ⟨hyear, hrest⟩ := Prod.mk.inj h'
    obtain ⟨hmonth, hday⟩ := Prod.mk.inj (toLex.injective hrest)
    exact CalendarDate.ext hyear hmonth hday)

theorem lt_iff {d e : CalendarDate} : d < e ↔ d.year < e.year ∨ d.year = e.year ∧
    (d.month < e.month ∨ d.month = e.month ∧ d.day < e.day) := by
  have hlex : d < e ↔ (toLex (d.year, toLex (d.month, d.day)) : ℕ ×ₗ ℕ ×ₗ ℕ) <
      toLex (e.year, toLex (e.month, e.day)) := Iff.rfl
  rw [hlex, Prod.Lex.lt_iff]
  simp only [ofLex_toLex, Prod.Lex.lt_iff]

theorem le_iff {d e : CalendarDate} : d ≤ e ↔ d.year < e.year ∨ d.year = e.year ∧
    (d.month < e.month ∨ d.month = e.month ∧ d.day ≤ e.day) := by
  rw [← not_lt, lt_iff]
  omega

/-- The number of the date. -/
def dayNumber (d : CalendarDate) : ℕ := yearStart d.year + daysBefore d.year d.month + d.day

/-! ## Days between two dates -/

section

variable {d e : CalendarDate}

theorem day_le_31 (d : CalendarDate) : d.day ≤ 31 := d.day_le.trans (daysIn_le _ _)

/-- A date lies in its year. -/
theorem daysBefore_add_day_le (d : CalendarDate) :
    daysBefore d.year d.month + d.day ≤ daysBefore d.year 13 := by
  have hday := d.day_le
  have hmonth : daysBefore d.year (d.month + 1) ≤ daysBefore d.year 13 :=
    daysBefore_mono _ (Nat.succ_le_succ d.month_le)
  rw [daysBefore_succ] at hmonth
  omega

/-- The days before a later year include the rest of the year of `d`. -/
theorem yearStart_add_le {year : ℕ} (h : d.year < year) :
    yearStart d.year + daysBefore d.year 13 ≤ yearStart year := by
  rw [← yearStart_succ]
  exact yearStart_mono h

theorem sub_le_of_same_month (hyear : d.year = e.year) (hmonth : d.month = e.month) :
    e.dayNumber ≤ d.dayNumber + 30 := by
  have hd := d.day_pos
  have he := e.day_le_31
  unfold dayNumber
  rw [hyear, hmonth]
  omega

/-- The same day of the next month, or an earlier one, is at most 31 days away. -/
theorem sub_le_of_next_month (hyear : d.year = e.year) (hmonth : e.month = d.month + 1)
    (hday : e.day ≤ d.day) : e.dayNumber ≤ d.dayNumber + 31 := by
  have hlen := daysIn_le e.year d.month
  unfold dayNumber
  rw [hmonth, daysBefore_succ, hyear]
  omega

/-- A later day of the next month is more than 28 days away. -/
theorem le_sub_of_next_month (hyear : d.year = e.year) (hmonth : e.month = d.month + 1)
    (hday : d.day < e.day) : d.dayNumber + 29 ≤ e.dayNumber := by
  have hlen := le_daysIn e.year d.month_pos d.month_le
  unfold dayNumber
  rw [hmonth, daysBefore_succ, hyear]
  omega

/-- Behind a whole month, 29 days have passed. -/
theorem le_sub_of_later_month (hyear : d.year = e.year) (hmonth : d.month + 1 < e.month) :
    d.dayNumber + 29 ≤ e.dayNumber := by
  have hd := d.day_le
  have he := e.day_pos
  have hlen := le_daysIn e.year (Nat.le_add_left 1 d.month) (hmonth.le.trans e.month_le)
  have hbefore := daysBefore_mono e.year hmonth
  rw [Nat.succ_eq_add_one, daysBefore_succ, daysBefore_succ] at hbefore
  rw [hyear] at hd
  unfold dayNumber
  rw [hyear]
  omega

/-- December and January. -/
theorem dayNumber_turn_of_year (hyear : e.year = d.year + 1) (hd : d.month = 12)
    (he : e.month = 1) : e.dayNumber + d.day = d.dayNumber + 31 + e.day := by
  have hdec : daysIn d.year 12 = 31 := rfl
  have hjan : daysBefore (d.year + 1) 1 = 0 := rfl
  unfold dayNumber
  rw [hyear, yearStart_succ, daysBefore_succ, hd, he, hdec, hjan]
  omega

/-- In a later year, 28 days have passed unless the two dates lie in December and
January. -/
theorem le_sub_of_later_year (hyear : d.year < e.year)
    (h : ¬ (e.year = d.year + 1 ∧ d.month = 12 ∧ e.month = 1)) :
    d.dayNumber + 28 ≤ e.dayNumber := by
  have hd := d.day_le
  have hmonth := d.month_le
  have hpos := e.day_pos
  have hrest := d.daysBefore_add_day_le
  have hnext := yearStart_add_le hyear
  unfold dayNumber
  by_cases hlast : d.month = 12
  · by_cases hfirst : e.month = 1
    · have hgap : d.year + 1 < e.year := by omega
      have hfull := yearStart_mono hgap
      have hjan := daysBefore_mono (d.year + 1) (by decide : 2 ≤ 13)
      have hlen : daysBefore (d.year + 1) 2 = 31 := rfl
      rw [Nat.succ_eq_add_one, yearStart_succ, yearStart_succ] at hfull
      omega
    · have hjan := daysBefore_mono e.year (by have := e.month_pos; omega : 2 ≤ e.month)
      have hlen : daysBefore e.year 2 = 31 := rfl
      omega
  · have hdec := daysBefore_mono d.year (by omega : d.month + 1 ≤ 12)
    have hlen : daysIn d.year 12 = 31 := rfl
    have hyearEnd : daysBefore d.year 13 = daysBefore d.year 12 + daysIn d.year 12 :=
      daysBefore_succ _ _
    rw [daysBefore_succ] at hdec
    omega

end

end CalendarDate
