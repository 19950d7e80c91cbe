import TaskQueue.Cron.Scan

/-!
# The search for an admitted minute

The search goes day by day and counts minutes since 1970. Said for minutes alone it is simple: it
finds the first admitted one of the `scanLimit` minutes from its start on, and finds none when none
of them is admitted.

Results:

* `admits_iff_admitsMinute`: an expression admits an instant by its minute;
* `firstMinute_eq_some`, `firstMinute_eq_none`: what the search finds.
-/

namespace TaskQueue.Cron.Expression

open Time

variable {e : Expression} {day m k : Int} {lo left days i : Nat}

/-- The expression admits a minute, counted since 1970. -/
def admitsMinute (e : Expression) (m : Int) : Bool :=
  e.admitsTime (m % minutesPerDay).toNat && e.admitsDay (m / minutesPerDay)

theorem admits_eq_admitsMinute (e : Expression) (t : Instant) :
    e.admits t = e.admitsMinute t.minuteNumber := by
  have htime : t.minuteOfDay = (t.minuteNumber % minutesPerDay).toNat := by
    unfold Instant.minuteOfDay Instant.secondOfDay Instant.minuteNumber minutesPerDay
    omega
  have hday : t.dayNumber = t.minuteNumber / minutesPerDay := by
    unfold Instant.dayNumber Instant.minuteNumber minutesPerDay
    omega
  unfold admits admitsMinute
  rw [htime, hday]

/-- A minute of a day. -/
theorem admitsMinute_day (e : Expression) (day : Int) (hi : i < minutesPerDay) :
    e.admitsMinute (day * minutesPerDay + i) = (e.admitsTime i && e.admitsDay day) := by
  have htime : ((day * minutesPerDay + i) % minutesPerDay).toNat = i := by
    unfold minutesPerDay at *
    omega
  have hday : (day * minutesPerDay + i) / minutesPerDay = day := by
    unfold minutesPerDay at *
    omega
  unfold admitsMinute
  rw [htime, hday]

/-! ## One day -/

/-- The first admitted minute of a day among the `here` minutes from `lo` on. -/
def searchDay (e : Expression) (day : Int) (lo here : Nat) : Option Nat :=
  if e.admitsDay day then firstFrom e.admitsTime lo here else none

theorem searchDay_eq_some {here m : Nat} (hlo : lo + here ≤ minutesPerDay)
    (h : e.searchDay day lo here = some m) :
    lo ≤ m ∧ m < lo + here ∧ e.admitsMinute (day * minutesPerDay + m) = true ∧
      ∀ i : Nat, lo ≤ i → i < m → e.admitsMinute (day * minutesPerDay + i) = false := by
  unfold searchDay at h
  by_cases hday : e.admitsDay day = true
  · rw [if_pos hday] at h
    obtain ⟨hle, hlt, hadm, hbefore⟩ := firstFrom_eq_some_iff.mp h
    refine ⟨hle, hlt, ?_, fun i hi hi' => ?_⟩
    · rw [admitsMinute_day e day (by omega), hadm, hday]
      rfl
    · rw [admitsMinute_day e day (by omega), hbefore i hi hi']
      rfl
  · rw [if_neg hday] at h
    cases h

theorem searchDay_eq_none {here : Nat} (hlo : lo + here ≤ minutesPerDay)
    (h : e.searchDay day lo here = none) :
    ∀ i : Nat, lo ≤ i → i < lo + here → e.admitsMinute (day * minutesPerDay + i) = false := by
  unfold searchDay at h
  intro i hi hi'
  rw [admitsMinute_day e day (by omega)]
  by_cases hday : e.admitsDay day = true
  · rw [if_pos hday] at h
    rw [firstFrom_eq_none_iff.mp h i hi hi']
    rfl
  · rw [Bool.eq_false_iff.mpr hday, Bool.and_false]

/-! ## Day by day -/

/-- One day of the search, and what comes after it. -/
theorem scanDays_succ (e : Expression) (day : Int) (lo left days : Nat) :
    e.scanDays day lo left (days + 1) =
      match e.searchDay day lo (min left (minutesPerDay - lo)) with
      | some i => some (day * minutesPerDay + i)
      | none =>
        if left ≤ min left (minutesPerDay - lo) then none
        else e.scanDays (day + 1) 0 (left - min left (minutesPerDay - lo)) days := rfl

/-- A minute that is found is the first admitted one of the window. -/
theorem scanDays_eq_some (hlo : lo < minutesPerDay) (h : e.scanDays day lo left days = some m) :
    day * minutesPerDay + lo ≤ m ∧ m < day * minutesPerDay + lo + left ∧
      e.admitsMinute m = true ∧
      ∀ k, day * minutesPerDay + lo ≤ k → k < m → e.admitsMinute k = false := by
  induction days generalizing day lo left with
  | zero => cases h
  | succ days ih =>
    have hhere : lo + min left (minutesPerDay - lo) ≤ minutesPerDay := by omega
    rw [scanDays_succ] at h
    split at h
    · next i hfound =>
      obtain ⟨hle, hlt, hadm, hbefore⟩ := searchDay_eq_some hhere hfound
      obtain rfl := Option.some.inj h
      refine ⟨by omega, by omega, hadm, fun k hk hk' => ?_⟩
      -- a minute before the one found is one of the same day
      obtain ⟨j, rfl⟩ : ∃ j : Nat, k = day * minutesPerDay + j :=
        ⟨(k - day * minutesPerDay).toNat, by omega⟩
      exact hbefore j (by omega) (by omega)
    · next hfound =>
      by_cases hleft : left ≤ min left (minutesPerDay - lo)
      · rw [if_pos hleft] at h
        cases h
      · rw [if_neg hleft] at h
        obtain ⟨hle, hlt, hadm, hbefore⟩ := ih (by decide) h
        have hnext : (day + 1) * (minutesPerDay : Int) = day * minutesPerDay + minutesPerDay := by
          rw [Int.add_mul, Int.one_mul]
        refine ⟨by omega, by omega, hadm, fun k hk hk' => ?_⟩
        by_cases hday : k < day * minutesPerDay + minutesPerDay
        · obtain ⟨j, rfl⟩ : ∃ j : Nat, k = day * minutesPerDay + j :=
            ⟨(k - day * minutesPerDay).toNat, by omega⟩
          exact searchDay_eq_none hhere hfound j (by omega) (by omega)
        · exact hbefore k (by omega) hk'

/-- When nothing is found, no minute of the window is admitted. The days suffice when the window
ends within them. -/
theorem scanDays_eq_none (hlo : lo < minutesPerDay) (hdays : lo + left ≤ days * minutesPerDay)
    (h : e.scanDays day lo left days = none) :
    ∀ k, day * minutesPerDay + lo ≤ k → k < day * minutesPerDay + lo + left →
      e.admitsMinute k = false := by
  induction days generalizing day lo left with
  | zero =>
    intro k hk hk'
    omega
  | succ days ih =>
    have hhere : lo + min left (minutesPerDay - lo) ≤ minutesPerDay := by omega
    have hmul : (days + 1) * minutesPerDay = days * minutesPerDay + minutesPerDay :=
      Nat.succ_mul _ _
    intro k hk hk'
    rw [scanDays_succ] at h
    split at h
    · cases h
    · next hfound =>
      by_cases hday : k < day * minutesPerDay + lo + (min left (minutesPerDay - lo) : Nat)
      · obtain ⟨j, rfl⟩ : ∃ j : Nat, k = day * minutesPerDay + j :=
          ⟨(k - day * minutesPerDay).toNat, by omega⟩
        exact searchDay_eq_none hhere hfound j (by omega) (by omega)
      · rw [if_neg (by omega)] at h
        have hnext : (day + 1) * (minutesPerDay : Int) = day * minutesPerDay + minutesPerDay := by
          rw [Int.add_mul, Int.one_mul]
        exact ih (by decide) (by omega) h k (by omega) (by omega)

/-! ## The whole search -/

/-- The day of a minute, and its place in the day. -/
theorem minute_split (start : Int) :
    (start % minutesPerDay).toNat < minutesPerDay ∧
      start / minutesPerDay * minutesPerDay + (start % minutesPerDay).toNat = start := by
  unfold minutesPerDay
  omega

theorem firstMinute_eq_some {start : Int} (h : e.firstMinute start = some m) :
    start ≤ m ∧ m < start + scanLimit ∧ e.admitsMinute m = true ∧
      ∀ k, start ≤ k → k < m → e.admitsMinute k = false := by
  obtain ⟨hlo, hstart⟩ := minute_split start
  have hfound := scanDays_eq_some hlo h
  rw [hstart] at hfound
  exact hfound

theorem firstMinute_eq_none {start : Int} (h : e.firstMinute start = none) :
    ∀ k, start ≤ k → k < start + scanLimit → e.admitsMinute k = false := by
  obtain ⟨hlo, hstart⟩ := minute_split start
  have hdays : (start % minutesPerDay).toNat + scanLimit ≤ 367 * minutesPerDay := by
    unfold scanLimit minutesPerDay at *
    omega
  have hnone := scanDays_eq_none hlo hdays h
  rw [hstart] at hnone
  exact hnone

end TaskQueue.Cron.Expression
