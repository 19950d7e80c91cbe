import TaskQueue.Proofs.Time.Minute
import TaskQueue.Proofs.Time.Year

/-!
# Days on the calendar and instants on the clock

The proleptic Gregorian calendar, told by its rule alone: 1 January 1970 was a Thursday, and every
day is followed by the next day of its month, or else by the first day of the next month, or else by
the first day of the next year. The date that is computed for a day is the one that this rule gives
it, in both directions from 1970 and without bounds. What a clock shows at an instant is the place
of its second in that day.

Results:

* `ofDays_succ`: the date of the next day is the one that follows;
* `dated_iff`: the calendar gives every day the date and the weekday that are computed for it;
* `shows_iff`: the calendar and the clock give every instant the parts that are computed for it;
* `plain_of_year`: the instants of the years 1678 to 2261 are plain, leap seconds apart.
-/

namespace TaskQueue.Time

namespace Date

variable {d : Date}

/-- The date of the next day. -/
def tomorrow (d : Date) : Date :=
  if d.day < daysInMonth d.year d.month then { d with day := d.day + 1 }
  else if d.month < 12 then ⟨d.year, d.month + 1, 1⟩
  else ⟨d.year + 1, 1, 1⟩

/-- The days in front of the next month. -/
theorem spanTotal_take_month (y : Int) {month : Nat} (h1 : 1 ≤ month) (h12 : month ≤ 12) :
    spanTotal ((monthLengths y).take month) =
      spanTotal ((monthLengths y).take (month - 1)) + daysInMonth y month := by
  unfold daysInMonth monthLengths
  cases isLeapYear y <;> interval_cases month <;> decide

/-- The date that follows exists. -/
theorem valid_tomorrow (h : d.Valid) : d.tomorrow.Valid := by
  obtain ⟨h1, h12, hd1, hd⟩ := h
  unfold tomorrow
  split
  · next hlt => exact ⟨h1, h12, by simp, hlt⟩
  · split
    · next hmonth =>
      have hdays := (daysInMonth_bounds d.year (show 1 ≤ d.month + 1 by omega) hmonth).1
      exact ⟨by simp, hmonth, by simp, by simp only; omega⟩
    · have hdays := (daysInMonth_bounds (d.year + 1) (Nat.le_refl 1) (by simp)).1
      exact ⟨by simp, by simp, by simp, by simp only; omega⟩

/-- It is that of the next day. -/
theorem toDays_tomorrow (h : d.Valid) : d.tomorrow.toDays = d.toDays + 1 := by
  obtain ⟨h1, h12, hd1, hd⟩ := h
  unfold tomorrow
  split
  · simp only [toDays]
    omega
  · have htake := spanTotal_take_month d.year h1 h12
    split
    · simp only [toDays, Nat.add_sub_cancel]
      omega
    · -- December ends with the year
      obtain hdec : d.month = 12 := by omega
      have hyear := yearStart_succ d.year
      have htotal := spanTotal_monthLengths d.year
      have hall : (monthLengths d.year).take d.month = monthLengths d.year :=
        List.take_of_length_le (by rw [length_monthLengths, hdec])
      rw [hall, htotal] at htake
      simp only [toDays, Nat.sub_self, List.take_zero, spanTotal_nil]
      split at htotal <;> simp_all <;> omega

/-- **The date of the next day is the one that follows.** -/
theorem ofDays_succ (n : Int) : ofDays (n + 1) = (ofDays n).tomorrow := by
  have hvalid := valid_ofDays n
  rw [← ofDays_toDays (valid_tomorrow hvalid), toDays_tomorrow hvalid, toDays_ofDays]

theorem weekday_lt (n : Int) : weekday n < 7 := by
  unfold weekday
  omega

theorem weekday_succ (n : Int) : weekday (n + 1) = (weekday n + 1) % 7 := by
  unfold weekday
  omega

end Date

/-! ## The calendar -/

/-- **The proleptic Gregorian calendar**: a day has a date and a weekday, counted from Sunday. -/
inductive Dated : Int → Date → Nat → Prop where
  /-- Thursday, 1 January 1970. -/
  | epoch : Dated 0 ⟨1970, 1, 1⟩ 4
  | tomorrow {n : Int} {d : Date} {w : Nat} (h : Dated n d w) :
      Dated (n + 1) d.tomorrow ((w + 1) % 7)
  | yesterday {n : Int} {d : Date} {w : Nat} (valid : d.Valid) (weekday : w < 7)
      (h : Dated (n + 1) d.tomorrow ((w + 1) % 7)) : Dated n d w

theorem dated_ofDays (n : Int) : Dated n (Date.ofDays n) (Date.weekday n) := by
  have hepoch : Dated 0 (Date.ofDays 0) (Date.weekday 0) := .epoch
  induction n using Int.induction_on with
  | zero => exact hepoch
  | succ n ih =>
    rw [Date.ofDays_succ, Date.weekday_succ]
    exact .tomorrow ih
  | pred n ih =>
    refine .yesterday (Date.valid_ofDays _) (Date.weekday_lt _) ?_
    rw [← Date.ofDays_succ, ← Date.weekday_succ, Int.sub_add_cancel]
    exact ih

/-- **The calendar gives every day the date and the weekday that are computed for it.** -/
theorem dated_iff {n : Int} {d : Date} {w : Nat} :
    Dated n d w ↔ d = Date.ofDays n ∧ w = Date.weekday n := by
  constructor
  · intro h
    induction h with
    | epoch => exact ⟨rfl, rfl⟩
    | tomorrow _ ih => exact ⟨by rw [Date.ofDays_succ, ih.1], by rw [Date.weekday_succ, ih.2]⟩
    | @yesterday n d w valid hw _ ih =>
      obtain ⟨hd, hw'⟩ := ih
      refine ⟨?_, ?_⟩
      · have hdays := congrArg Date.toDays hd
        rw [Date.toDays_tomorrow valid, Date.toDays_ofDays] at hdays
        rw [← Date.ofDays_toDays valid, show d.toDays = n by omega]
      · unfold Date.weekday at hw' ⊢
        omega
  · rintro ⟨rfl, rfl⟩
    exact dated_ofDays n

/-! ## The clock -/

/-- **What the calendar and the clock show** at an instant: a date, a weekday, an hour and a
minute. -/
inductive Shows (t : Instant) (d : Date) (weekday hour minute : Nat) : Prop where
  | intro (day : Int) (second : Nat) (dated : Dated day d weekday) (hour_lt : hour < 24)
      (minute_lt : minute < 60) (second_lt : second < 60)
      (seconds : t.seconds = ((day * 24 + hour) * 60 + minute) * 60 + second)

/-- **The calendar and the clock give every instant the parts that are computed for it.** -/
theorem shows_iff {t : Instant} {d : Date} {weekday hour minute : Nat} :
    Shows t d weekday hour minute ↔ d = Date.ofDays t.dayNumber ∧
      weekday = Date.weekday t.dayNumber ∧ hour = t.minuteOfDay / 60 ∧
      minute = t.minuteOfDay % 60 := by
  constructor
  · rintro ⟨day, second, dated, hour_lt, minute_lt, second_lt, seconds⟩
    have hday : t.dayNumber = day := by
      unfold Instant.dayNumber
      omega
    obtain ⟨rfl, rfl⟩ := dated_iff.mp dated
    refine ⟨by rw [hday], by rw [hday], ?_, ?_⟩ <;>
      unfold Instant.minuteOfDay Instant.secondOfDay <;> omega
  · rintro ⟨rfl, rfl, rfl, rfl⟩
    have hsecond := Nat.mod_lt t.secondOfDay (show 0 < 60 by decide)
    refine .intro t.dayNumber _ (dated_ofDays _) ?_ (Nat.mod_lt _ (by decide)) hsecond ?_
    · unfold Instant.minuteOfDay Instant.secondOfDay
      omega
    · unfold Instant.minuteOfDay Instant.secondOfDay Instant.dayNumber
      omega

namespace Instant

/-- The instants of the years 1678 to 2261 are plain, leap seconds apart. -/
theorem plain_of_year {t : Instant} (hlo : 1678 ≤ (Date.ofDays t.dayNumber).year)
    (hhi : (Date.ofDays t.dayNumber).year ≤ 2261) (hleap : t.nanos < nanosPerSecond) : t.Plain := by
  have hstart : yearStart 1678 ≤ t.dayNumber :=
    (yearStart_mono hlo).trans (yearStart_yearOf_le t.dayNumber)
  have hend : t.dayNumber < yearStart 2262 :=
    (lt_yearStart_succ t.dayNumber).trans_le (yearStart_mono (Int.add_le_add_right hhi 1))
  rw [show yearStart 1678 = -106650 from by decide] at hstart
  rw [show yearStart 2262 = 106651 from by decide] at hend
  unfold dayNumber at hstart hend
  unfold nanosPerSecond at hleap
  refine ⟨?_, ?_, hleap⟩ <;> unfold nanosPerSecond <;> omega

end Instant

end TaskQueue.Time
