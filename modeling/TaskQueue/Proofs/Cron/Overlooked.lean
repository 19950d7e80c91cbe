import TaskQueue.Proofs.Cron.Yearly
import TaskQueue.Proofs.Time.Gregorian

/-!
# The year ahead by the calendar

A year ahead of an instant lasts until the same date and time of day of the next year, and so 366
days when a 29 February lies in it. The search looks at 365 days. An instant is `Overlooked` when
what its year ahead admits comes after these.

Results:

* `not_admits_of_barren`: unless it is overlooked, a search that finds nothing speaks for the year;
* `overlooked_iff_stranded`: for a yearly expression the overlooked instants are the stranded ones.
-/

namespace TaskQueue.Time

/-- After a date that comes every year, a 29 February still lies ahead of the next day. -/
theorem Date.leapDayAhead_tomorrow {d : Date} (hd : ∀ y, (⟨y, d.month, d.day⟩ : Date).Valid)
    (h : leapDayAhead d.year d.month = true) :
    leapDayAhead d.tomorrow.year d.tomorrow.month = true := by
  obtain ⟨h1, h12, -, hday⟩ := hd 2001
  simp only at h1 h12 hday
  unfold tomorrow
  split
  · exact h
  · next hend =>
    -- no month of a leap year that ends at such a date is February
    have hmonth : d.month ≠ 2 := by
      intro hfeb
      rw [leapDayAhead, hfeb, if_pos (Nat.le_refl 2)] at h
      have hlong : daysInMonth d.year 2 = 29 := by simp [daysInMonth, monthLengths, h]
      rw [hfeb] at hend hday
      rw [hlong] at hend
      have hshort : daysInMonth 2001 2 = 28 := by decide
      rw [hshort] at hday
      omega
    unfold leapDayAhead at h ⊢
    split
    · next hlt =>
      by_cases hfirst : d.month ≤ 2
      · obtain hjan : d.month = 1 := by omega
        rw [hjan] at h ⊢
        exact h
      · rw [if_neg hfirst] at h
        rw [if_neg (by simp only; omega)]
        exact h
    · obtain hdec : d.month = 12 := by omega
      rw [hdec] at h
      exact h

end TaskQueue.Time

namespace TaskQueue.Cron.Expression

open Time

/-- The day with the same date a year later; after a 29 February, the first of March. -/
def dayNextYear (day : Int) : Int :=
  Date.toDays { Date.ofDays day with year := (Date.ofDays day).year + 1 }

/-- The last minute of the year ahead. -/
def yearEnd (u : Instant) : Int := dayNextYear u.dayNumber * minutesPerDay + u.minuteOfDay

theorem dayNextYear_eq (day : Int) :
    dayNextYear day = day +
      if leapDayAhead (Date.ofDays day).year (Date.ofDays day).month then 366 else 365 := by
  obtain ⟨h1, h12, -, -⟩ := Date.valid_ofDays day
  have hday := Date.toDays_ofDays day
  unfold dayNextYear
  generalize Date.ofDays day = d at h1 h12 hday ⊢
  rw [← hday]
  exact Date.toDays_nextYear d.year d.day h1 h12

/-- **What the search misses of a year**: it finds nothing, though the year ahead has a minute that
is admitted. -/
structure Overlooked (e : Expression) (u : Instant) : Prop where
  barren : e.Barren u.minuteNumber
  admitted : ∃ k, u.minuteNumber < k ∧ k ≤ yearEnd u ∧ e.admitsMinute k = true

variable {e : Expression} {u m : Instant}

/-- **A search that finds nothing speaks for the whole year** at an instant that is not
overlooked. -/
theorem not_admits_of_barren (h : e.Barren u.minuteNumber) (reached : ¬ e.Overlooked u)
    (whole : m.Whole) (later : u < m) (within : m.minuteNumber ≤ yearEnd u) :
    e.admits m = false := by
  rw [admits_eq_admitsMinute]
  refine Bool.eq_false_iff.mpr fun hadm => reached ⟨h, m.minuteNumber, ?_, within, hadm⟩
  obtain ⟨hsec, hnanos⟩ := whole
  rw [Instant.lt_def] at later
  unfold Instant.minuteNumber
  omega

/-- A stranded day is the date before a 29 February or the day after it. -/
theorem Stranded.leapDayAhead (hr : e.InRange) (hy : e.Yearly) (h : e.Stranded u.minuteNumber) :
    Time.leapDayAhead (Date.ofDays u.dayNumber).year (Date.ofDays u.dayNumber).month = true := by
  obtain ⟨y, month, day, hmonth, hday, leap, past, before⟩ := h
  have hvalid := hy.valid hmonth hday
  have hlast := lastTime_lt hr
  have hfirst := firstTime_le (admitsTime_lastTime hr)
  have htoday : u.dayNumber = Date.toDays ⟨y, month, day⟩ ∨
      u.dayNumber = Date.toDays ⟨y, month, day⟩ + 1 := by
    unfold Instant.dayNumber Instant.minuteNumber minutesPerDay at *
    omega
  rcases htoday with hthat | hnext
  · rw [hthat, Date.ofDays_toDays (hvalid y)]
    exact leap
  · rw [hnext, Date.ofDays_succ, Date.ofDays_toDays (hvalid y)]
    exact Date.leapDayAhead_tomorrow hvalid leap

/-- **For a yearly expression the overlooked instants are the stranded ones.** -/
theorem overlooked_iff_stranded (hr : e.InRange) (hy : e.Yearly) :
    e.Overlooked u ↔ e.Stranded u.minuteNumber := by
  refine ⟨fun h => h.barren.stranded hr hy, fun h => ⟨h.barren hy, ?_⟩⟩
  have hahead := dayNextYear_eq u.dayNumber
  rw [if_pos (h.leapDayAhead hr hy)] at hahead
  obtain ⟨y, month, day, hmonth, hday, leap, past, before⟩ := h
  have hvalid := hy.valid hmonth hday
  have hgap := Date.toDays_nextYear y day (hvalid y).1 (hvalid y).2.1
  simp only [leap, if_true] at hgap
  have hfirst := firstTime_le (admitsTime_lastTime hr)
  have hlast := lastTime_lt hr
  -- it is the first admitted minute of the next date
  refine ⟨Date.toDays ⟨y + 1, month, day⟩ * minutesPerDay + e.firstTime, ?_, ?_, ?_⟩
  · unfold minutesPerDay at *
    omega
  · unfold yearEnd Instant.minuteOfDay Instant.secondOfDay Instant.dayNumber Instant.minuteNumber
      minutesPerDay at *
    omega
  · rw [admitsMinute_day e _ (by omega), admitsTime_firstTime hr,
      hy.admitsDay_toDays (hvalid (y + 1)) (by simp [hday, Field.admits])
        (by simp [hmonth, Field.admits])]
    rfl

end TaskQueue.Cron.Expression
