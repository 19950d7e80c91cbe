import Mathlib.Tactic.IntervalCases
import TaskQueue.Time.Calendar

/-!
# One date in every year

A day of a month that every year has comes back after 365 days, or after 366 when a 29 February lies
between.

Results:

* `toDays_mono`, `toDays_strictMono`: a later year has the date on a later day;
* `toDays_nextYear`: how many days later the next year has it.
-/

namespace TaskQueue.Time

/-- A 29 February lies between a date in a month of the year and the same date of the next year. -/
def leapDayAhead (y : Int) (month : Nat) : Bool := isLeapYear (if month ≤ 2 then y else y + 1)

/-- The days in front of a month, in a year without 29 February. -/
def monthOffset (month : Nat) : Nat := spanTotal ((monthLengths 1).take (month - 1))

theorem monthOffset_le {month : Nat} (h1 : 1 ≤ month) (h12 : month ≤ 12) :
    monthOffset month ≤ 334 := by
  interval_cases month <;> decide

/-- From March on a 29 February lies in front. -/
theorem spanTotal_take_monthLengths (y : Int) {month : Nat} (h1 : 1 ≤ month) (h12 : month ≤ 12) :
    spanTotal ((monthLengths y).take (month - 1)) =
      monthOffset month + if isLeapYear y && decide (3 ≤ month) then 1 else 0 := by
  unfold monthOffset monthLengths
  cases isLeapYear y <;> interval_cases month <;> decide

/-- A month has twenty-eight to thirty-one days. -/
theorem daysInMonth_bounds (y : Int) {month : Nat} (h1 : 1 ≤ month) (h12 : month ≤ 12) :
    28 ≤ daysInMonth y month ∧ daysInMonth y month ≤ 31 := by
  unfold daysInMonth monthLengths
  cases isLeapYear y <;> interval_cases month <;> decide

namespace Date

variable {y y' : Int} {month day : Nat}

theorem toDays_eq (y : Int) (day : Nat) (h1 : 1 ≤ month) (h12 : month ≤ 12) :
    toDays ⟨y, month, day⟩ =
      yearStart y + monthOffset month + (if isLeapYear y && decide (3 ≤ month) then 1 else 0) +
        (day - 1 : Nat) := by
  simp only [toDays, spanTotal_take_monthLengths y h1 h12]
  split <;> omega

theorem yearStart_le_toDays (d : Date) : yearStart d.year ≤ d.toDays := by
  simp only [toDays]
  omega

theorem toDays_lt_yearStart_succ {d : Date} (h : d.Valid) : d.toDays < yearStart (d.year + 1) := by
  have hyear : yearOf d.toDays = d.year := congrArg Date.year (ofDays_toDays h)
  have hlt := lt_yearStart_succ d.toDays
  rwa [hyear] at hlt

/-- In a later year the date lies on a later day. -/
theorem toDays_strictMono (h : y < y') (hd : (⟨y, month, day⟩ : Date).Valid) :
    toDays ⟨y, month, day⟩ < toDays ⟨y', month, day⟩ := by
  have hend := toDays_lt_yearStart_succ hd
  have hyears : yearStart (y + 1) ≤ yearStart y' := yearStart_mono h
  have hstart := yearStart_le_toDays ⟨y', month, day⟩
  simp only at hend hstart
  omega

theorem toDays_mono (h : y ≤ y') (hd : (⟨y, month, day⟩ : Date).Valid) :
    toDays ⟨y, month, day⟩ ≤ toDays ⟨y', month, day⟩ := by
  rcases Int.lt_or_eq_of_le h with hlt | rfl
  · exact Int.le_of_lt (toDays_strictMono hlt hd)
  · exact Int.le_refl _

/-- Any day lies between the dates of two years that follow each other. -/
theorem exists_year_of_date (hd : ∀ y, (⟨y, month, day⟩ : Date).Valid) (n : Int) :
    ∃ y, toDays ⟨y, month, day⟩ ≤ n ∧ n < toDays ⟨y + 1, month, day⟩ := by
  have hstart := yearStart_yearOf_le n
  have hend := lt_yearStart_succ n
  generalize yearOf n = y at hstart hend
  have hlast := toDays_lt_yearStart_succ (hd (y - 1))
  have hnext := yearStart_le_toDays ⟨y + 1, month, day⟩
  simp only [Int.sub_add_cancel] at hlast hnext
  by_cases hcome : toDays ⟨y, month, day⟩ ≤ n
  · exact ⟨y, hcome, by omega⟩
  · exact ⟨y - 1, by omega, by rw [Int.sub_add_cancel]; omega⟩

/-- **From one year to the next** a date moves by 365 days, and by one more over a 29 February. -/
theorem toDays_nextYear (y : Int) (day : Nat) (h1 : 1 ≤ month) (h12 : month ≤ 12) :
    toDays ⟨y + 1, month, day⟩ =
      toDays ⟨y, month, day⟩ + if leapDayAhead y month then 366 else 365 := by
  rw [toDays_eq (y + 1) day h1 h12, toDays_eq y day h1 h12, yearStart_succ]
  unfold leapDayAhead
  by_cases hmonth : month ≤ 2
  · have hnot : ¬ 3 ≤ month := by omega
    simp only [hmonth, hnot, if_true, decide_false, Bool.and_false, Bool.false_eq_true, if_false]
    split <;> omega
  · have hthree : 3 ≤ month := by omega
    simp only [hmonth, hthree, if_false, decide_true, Bool.and_true]
    split <;> split <;> omega

end Date

end TaskQueue.Time
