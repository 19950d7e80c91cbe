import TaskQueue.Proofs.Cron.NextRun
import TaskQueue.Proofs.Cron.Text
import TaskQueue.Proofs.Time.Year

/-!
# Schedules that come up every year

An expression is `Yearly` when its weekday is free and every year has a date that it admits. Its
next match is found within 365 days, but for one stretch. When the month and the day are fixed and a
29 February lies ahead, the next date is 366 days away. From the last admitted minute of the date on
until the time of day of the first one has come round again (`Stranded`), the search ends before it.

Results:

* `firstTime_le`, `le_lastTime`: the admitted times of a day lie between two admitted ones;
* `date_ahead`: a yearly expression whose day or month is free has an admitted day among the next
  364, whatever day it is;
* `nextMatch_yearly`: a yearly expression has a next match exactly when it is not stranded.
-/

namespace TaskQueue.Cron

open Time

/-! ## The times of a day -/

namespace Field

/-- The least value that a field admits. -/
def first : Field → Nat
  | any => 0
  | exactly n => n

/-- The greatest value that a field of values up to `top` admits. -/
def last (top : Nat) : Field → Nat
  | any => top
  | exactly n => n

theorem admits_exactly {n v : Nat} : (exactly n).admits v = true ↔ n = v := by simp [admits]

theorem admits_first (f : Field) : f.admits f.first = true := by cases f <;> simp [admits, first]

theorem admits_last (f : Field) (top : Nat) : f.admits (f.last top) = true := by
  cases f <;> simp [admits, last]

theorem first_le {f : Field} {v : Nat} (h : f.admits v = true) : f.first ≤ v := by
  cases f with
  | any => exact Nat.zero_le v
  | exactly n => exact (admits_exactly.mp h).le

theorem le_last {f : Field} {v top : Nat} (hv : v ≤ top) (h : f.admits v = true) :
    v ≤ f.last top := by
  cases f with
  | any => exact hv
  | exactly n => exact (admits_exactly.mp h).ge

end Field

namespace Expression

variable {e : Expression}

/-- The first admitted minute of an admitted day. -/
def firstTime (e : Expression) : Nat := 60 * e.hour.first + e.minute.first

/-- The last admitted minute of an admitted day. -/
def lastTime (e : Expression) : Nat := 60 * e.hour.last 23 + e.minute.last 59

theorem field_lt (h : e.InRange) : e.minute.first < 60 ∧ e.minute.last 59 < 60 ∧
    e.hour.first < 24 ∧ e.hour.last 23 < 24 := by
  have hminute := h.minute
  have hhour := h.hour
  cases hm : e.minute <;> cases hh : e.hour <;>
    simp_all [Field.InRange, Field.first, Field.last, FieldName.greatest] <;> omega

theorem admitsTime_firstTime (h : e.InRange) : e.admitsTime e.firstTime = true := by
  obtain ⟨hlt, -, -, -⟩ := field_lt h
  have hminute : e.firstTime % 60 = e.minute.first := by unfold firstTime; omega
  have hhour : e.firstTime / 60 = e.hour.first := by unfold firstTime; omega
  rw [admitsTime, hminute, hhour, Field.admits_first, Field.admits_first]
  rfl

theorem admitsTime_lastTime (h : e.InRange) : e.admitsTime e.lastTime = true := by
  obtain ⟨-, hlt, -, -⟩ := field_lt h
  have hminute : e.lastTime % 60 = e.minute.last 59 := by unfold lastTime; omega
  have hhour : e.lastTime / 60 = e.hour.last 23 := by unfold lastTime; omega
  rw [admitsTime, hminute, hhour, Field.admits_last, Field.admits_last]
  rfl

theorem lastTime_lt (h : e.InRange) : e.lastTime < minutesPerDay := by
  obtain ⟨-, hminute, -, hhour⟩ := field_lt h
  unfold lastTime minutesPerDay
  omega

theorem firstTime_le {i : Nat} (h : e.admitsTime i = true) : e.firstTime ≤ i := by
  obtain ⟨hminute, hhour⟩ := Bool.and_eq_true_iff.mp h
  have := Field.first_le hminute
  have := Field.first_le hhour
  unfold firstTime
  omega

theorem le_lastTime {i : Nat} (hi : i < minutesPerDay) (h : e.admitsTime i = true) :
    i ≤ e.lastTime := by
  obtain ⟨hminute, hhour⟩ := Bool.and_eq_true_iff.mp h
  unfold minutesPerDay at hi
  have : i % 60 ≤ e.minute.last 59 := Field.le_last (by omega) hminute
  have : i / 60 ≤ e.hour.last 23 := Field.le_last (by omega) hhour
  unfold lastTime
  omega

/-! ## The days of a year -/

/-- The weekday is free, and every year has a date with the day and the month. -/
structure Yearly (e : Expression) : Prop where
  weekday : e.weekday = .any
  date : ∀ y, ∃ d : Date, d.Valid ∧ d.year = y ∧ e.day.admits d.day = true ∧
    e.month.admits d.month = true

theorem Yearly.admitsDay_eq (hy : e.Yearly) (n : Int) :
    e.admitsDay n =
      (e.day.admits (Date.ofDays n).day && e.month.admits (Date.ofDays n).month) := by
  have hweekday : e.weekday.admits (Date.weekday n) = true := by
    rw [hy.weekday]
    rfl
  simp only [admitsDay, hweekday, Bool.and_true]

theorem Yearly.admitsDay_toDays (hy : e.Yearly) {d : Date} (hd : d.Valid)
    (hday : e.day.admits d.day = true) (hmonth : e.month.admits d.month = true) :
    e.admitsDay d.toDays = true := by
  rw [hy.admitsDay_eq, Date.ofDays_toDays hd, hday, hmonth]
  rfl

/-- With a free month, July and January have the day. -/
theorem Yearly.date_ahead_of_month (hy : e.Yearly) (hmonth : e.month = .any) (today : Int) :
    ∃ n, today < n ∧ n ≤ today + 364 ∧ e.admitsDay n = true := by
  have hstart := yearStart_yearOf_le today
  have hend := lt_yearStart_succ today
  generalize yearOf today = y at hstart hend
  obtain ⟨d, ⟨hm1, hm12, hd1, hd⟩, -, hday, -⟩ := hy.date y
  have hd31 : d.day ≤ 31 := hd.trans (daysInMonth_bounds d.year hm1 hm12).2
  have hfree (v : Nat) : e.month.admits v = true := by
    rw [hmonth]
    rfl
  have hjuly := Date.toDays_eq y d.day (show 1 ≤ 7 by omega) (by omega)
  have hjanuary := Date.toDays_eq (y + 1) d.day (Nat.le_refl 1) (by omega)
  rw [show monthOffset 7 = 181 from rfl] at hjuly
  rw [show monthOffset 1 = 0 from rfl] at hjanuary
  have hyear := yearStart_succ y
  simp at hjuly hjanuary hyear
  -- early in the year July lies ahead, and later on the next January is near enough
  by_cases hearly : today < Date.toDays ⟨y, 7, d.day⟩
  · exact ⟨_, hearly, by split at hjuly <;> omega,
      hy.admitsDay_toDays ⟨by simp, by simp, hd1, hd31⟩ hday (hfree 7)⟩
  · exact ⟨_, by omega, by split at hjuly <;> omega,
      hy.admitsDay_toDays (d := ⟨y + 1, 1, d.day⟩) ⟨by simp, by simp, hd1, hd31⟩ hday (hfree 1)⟩

/-- With a free day, the month has a first day and a twenty-eighth. -/
theorem Yearly.date_ahead_of_day (hy : e.Yearly) (hday : e.day = .any) (today : Int) :
    ∃ n, today < n ∧ n ≤ today + 364 ∧ e.admitsDay n = true := by
  have hstart := yearStart_yearOf_le today
  have hend := lt_yearStart_succ today
  generalize yearOf today = y at hstart hend
  obtain ⟨d, ⟨hm1, hm12, -, -⟩, -, -, hmonth⟩ := hy.date y
  have hfree (v : Nat) : e.day.admits v = true := by
    rw [hday]
    rfl
  have hlong (y : Int) : 28 ≤ daysInMonth y d.month := (daysInMonth_bounds y hm1 hm12).1
  have hoffset := monthOffset_le hm1 hm12
  have hfirst := Date.toDays_eq y 1 hm1 hm12
  have hlast := Date.toDays_eq y 28 hm1 hm12
  have hnext := Date.toDays_nextYear y 1 hm1 hm12
  -- the month lies ahead, or this day is in it, or the next year's is near enough
  by_cases hahead : today < Date.toDays ⟨y, d.month, 1⟩
  · exact ⟨_, hahead, by split at hfirst <;> omega,
      hy.admitsDay_toDays ⟨hm1, hm12, by simp, (hlong y).trans' (by simp)⟩ (hfree 1) hmonth⟩
  · by_cases hwithin : today < Date.toDays ⟨y, d.month, 28⟩
    · exact ⟨_, hwithin, by omega,
        hy.admitsDay_toDays ⟨hm1, hm12, by simp, hlong y⟩ (hfree 28) hmonth⟩
    · have hthen := Date.yearStart_le_toDays ⟨y + 1, d.month, 1⟩
      exact ⟨_, by simp only at hthen; omega, by split at hnext <;> omega,
        hy.admitsDay_toDays (d := ⟨y + 1, d.month, 1⟩)
          ⟨hm1, hm12, by simp, (hlong (y + 1)).trans' (by simp)⟩ (hfree 1) hmonth⟩

/-- **A free day or month comes soon.** -/
theorem Yearly.date_ahead (hy : e.Yearly) (hfree : e.day = .any ∨ e.month = .any) (today : Int) :
    ∃ n, today < n ∧ n ≤ today + 364 ∧ e.admitsDay n = true :=
  hfree.elim (hy.date_ahead_of_day · today) (hy.date_ahead_of_month · today)

/-- A fixed day and month are a date of every year. -/
theorem Yearly.valid (hy : e.Yearly) {month day : Nat} (hmonth : e.month = .exactly month)
    (hday : e.day = .exactly day) (y : Int) : (⟨y, month, day⟩ : Date).Valid := by
  obtain ⟨d, hd, hyear, hd', hm'⟩ := hy.date y
  rw [hday, Field.admits_exactly] at hd'
  rw [hmonth, Field.admits_exactly] at hm'
  rw [← hyear, hm', hd']
  exact hd

/-! ## What the search reaches -/

/-- The minute lies in the stretch from which a whole search does not reach the next date: the month
and the day are fixed, a 29 February lies ahead of the date, the last admitted minute of the date
has come, and the time of day of the first one has not come round again. -/
inductive Stranded (e : Expression) (m : Int) : Prop where
  | intro (y : Int) (month day : Nat) (fixedMonth : e.month = .exactly month)
      (fixedDay : e.day = .exactly day) (leap : leapDayAhead y month = true)
      (past : Date.toDays ⟨y, month, day⟩ * minutesPerDay + e.lastTime ≤ m)
      (before : m < (Date.toDays ⟨y, month, day⟩ + 1) * minutesPerDay + e.firstTime)

/-- No minute that a search from `m` looks at is admitted. -/
def Barren (e : Expression) (m : Int) : Prop :=
  ∀ k, m < k → k ≤ m + scanLimit → e.admitsMinute k = false

/-- An admitted time of an admitted day lies outside of a barren stretch. -/
theorem Barren.outside {m day : Int} {i : Nat} (h : e.Barren m) (hday : e.admitsDay day = true)
    (hi : i < minutesPerDay) (htime : e.admitsTime i = true) :
    day * minutesPerDay + i ≤ m ∨ m + scanLimit < day * minutesPerDay + i := by
  by_contra hin
  have hk := h (day * minutesPerDay + i) (by omega) (by omega)
  rw [admitsMinute_day e day hi, htime, hday] at hk
  cases hk

/-- What is barren is so because of a 29 February. -/
theorem Barren.stranded {m : Int} (hr : e.InRange) (hy : e.Yearly) (h : e.Barren m) :
    e.Stranded m := by
  have hfirst := firstTime_le (admitsTime_lastTime hr)
  have hlast := lastTime_lt hr
  have hout (n : Int) (hn : e.admitsDay n = true) :=
    And.intro (h.outside hn (by omega) (admitsTime_firstTime hr))
      (h.outside hn hlast (admitsTime_lastTime hr))
  obtain ⟨today, htoday⟩ : ∃ today : Int, today = m / minutesPerDay := ⟨_, rfl⟩
  have hfar (n : Int) (hn : e.admitsDay n = true) : ¬ (today < n ∧ n ≤ today + 364) := by
    rintro ⟨hlo, hhi⟩
    have := hout n hn
    unfold scanLimit minutesPerDay at *
    omega
  have hfixed : ¬ (e.day = .any ∨ e.month = .any) := by
    intro hfree
    obtain ⟨n, hlo, hhi, hn⟩ := hy.date_ahead hfree today
    exact hfar n hn ⟨hlo, hhi⟩
  cases hday : e.day with
  | any => exact absurd (.inl hday) hfixed
  | exactly day =>
  cases hmonth : e.month with
  | any => exact absurd (.inr hmonth) hfixed
  | exactly month =>
  have hvalid := hy.valid hmonth hday
  have hadmitted (y : Int) : e.admitsDay (Date.toDays ⟨y, month, day⟩) = true :=
    hy.admitsDay_toDays (hvalid y) (by simp [hday, Field.admits]) (by simp [hmonth, Field.admits])
  obtain ⟨y, hpast, hnext⟩ := Date.exists_year_of_date hvalid today
  have hgap := Date.toDays_nextYear y day (hvalid y).1 (hvalid y).2.1
  have hthis := hout _ (hadmitted y)
  have hthen := hout _ (hadmitted (y + 1))
  have hnear := hfar _ (hadmitted (y + 1))
  -- the next date is 365 days away or more, so this day is the date or comes right after it
  cases hleap : leapDayAhead y month with
  | true =>
    simp only [hleap, if_true] at hgap
    refine ⟨y, month, day, hmonth, hday, hleap, ?_, ?_⟩ <;>
      unfold scanLimit minutesPerDay at * <;> omega
  | false =>
    simp only [hleap, Bool.false_eq_true, if_false] at hgap
    exfalso
    unfold scanLimit minutesPerDay at *
    omega

/-- From a stranded minute a search reaches nothing. -/
theorem Stranded.barren {m : Int} (hy : e.Yearly) (h : e.Stranded m) : e.Barren m := by
  obtain ⟨y, month, day, hmonth, hday, hleap, hpast, hbefore⟩ := h
  intro k hk hk'
  by_contra hadm
  obtain ⟨hlo, hsplit⟩ := minute_split k
  obtain ⟨htime, hdate⟩ := Bool.and_eq_true_iff.mp (Bool.not_eq_false _ ▸ hadm)
  have hfirst := firstTime_le htime
  have hlast := le_lastTime hlo htime
  -- the minute lies on the same date of some year
  rw [hy.admitsDay_eq, Bool.and_eq_true, hday, hmonth, Field.admits_exactly,
    Field.admits_exactly] at hdate
  obtain ⟨hd, hm⟩ := hdate
  have hthat : Date.toDays ⟨(Date.ofDays (k / minutesPerDay)).year, month, day⟩ =
      k / minutesPerDay := by
    rw [hd, hm]
    exact Date.toDays_ofDays _
  generalize (Date.ofDays (k / minutesPerDay)).year = y' at hthat
  have hvalid := hy.valid hmonth hday
  have hgap := Date.toDays_nextYear y day (hvalid y).1 (hvalid y).2.1
  simp only [hleap, if_true] at hgap
  unfold scanLimit minutesPerDay at *
  by_cases hyear : y' ≤ y
  · have := Date.toDays_mono hyear (hvalid y')
    omega
  · have := Date.toDays_mono (show y + 1 ≤ y' by omega) (hvalid (y + 1))
    omega

/-- The search finds nothing exactly when there is nothing. -/
theorem nextMatch_eq_none_iff {u : Instant} {o : Option Instant} (h : e.nextMatch u = .ok o) :
    o = none ↔ e.Barren u.minuteNumber := by
  constructor
  · rintro rfl
    exact nextMatch_eq_none h
  · intro hbarren
    obtain ⟨f, hf, ⟨m, n, hm, -, -⟩ | ⟨-, rfl⟩⟩ := nextMatch_ok h
    · obtain ⟨hnext, -⟩ := Instant.nextMinute hf
      obtain ⟨hle, hlt, hadm, -⟩ := firstMinute_eq_some hm
      rw [hbarren m (by omega) (by omega)] at hadm
      cases hadm
    · rfl

/-- **A yearly expression that is read has a next match** after every instant that is not near the
ends of time, unless the minute is stranded: then a 29 February lies ahead, and the search ends
before the next date. -/
theorem nextMatch_yearly {s : String} {u : Instant} (hp : parse s = .ok e) (hy : e.Yearly)
    (hlo : -100000000000 ≤ u.seconds) (hhi : u.seconds ≤ 100000000000) :
    ((∃ n, e.nextMatch u = .ok (some n)) ↔ ¬ e.Stranded u.minuteNumber) ∧
      (e.nextMatch u = .ok none ↔ e.Stranded u.minuteNumber) := by
  obtain ⟨o, ho⟩ := nextMatch_exists e hlo hhi
  have hnone : o = none ↔ e.Stranded u.minuteNumber :=
    (nextMatch_eq_none_iff ho).trans
      ⟨fun h => h.stranded (inRange_of_parse hp) hy, fun h => h.barren hy⟩
  rw [← hnone, ho]
  cases o <;> simp

/-- Midnight on the first of March. -/
def firstOfMarch : Expression := ⟨.exactly 0, .exactly 0, .exactly 1, .exactly 3, .any⟩

theorem firstOfMarch_yearly : firstOfMarch.Yearly where
  weekday := rfl
  date y := by
    have hmarch : daysInMonth y 3 = 31 := rfl
    exact ⟨⟨y, 3, 1⟩, ⟨by simp, by simp, by simp, by simp [hmarch]⟩, rfl, rfl, rfl⟩

/-- Midnight on 1 March 2027, in front of a leap year. -/
def march2027 : Instant := Instant.atSecond 1803859200 (by decide)

theorem parse_firstOfMarch : parse "0 0 1 3 *" = .ok firstOfMarch := by decide +kernel

theorem firstOfMarch_stranded :
    firstOfMarch.Stranded march2027.minuteNumber ∧ firstOfMarch.nextMatch march2027 = .ok none := by
  have hstranded : firstOfMarch.Stranded march2027.minuteNumber :=
    .intro 2027 3 1 rfl rfl (by decide) (by decide) (by decide)
  exact ⟨hstranded, (nextMatch_yearly parse_firstOfMarch firstOfMarch_yearly (by decide)
    (by decide)).2.mpr hstranded⟩

/-- The search does not reach the first of March from the one before a leap year. -/
theorem firstOfMarch_not_reached :
    parse "0 0 1 3 *" = .ok firstOfMarch ∧ firstOfMarch.Yearly ∧
      Date.ofDays march2027.dayNumber = ⟨2027, 3, 1⟩ ∧ march2027.Plain ∧
      firstOfMarch.nextMatch march2027 = .ok none :=
  ⟨parse_firstOfMarch, firstOfMarch_yearly, by decide, by decide, by decide +kernel⟩

end Expression

end TaskQueue.Cron
