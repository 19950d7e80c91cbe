import TaskQueue.Proofs.Cron.Overlooked
import TaskQueue.Proofs.Schedule.Standing

/-!
# Why a job is enqueued

When each tick's enqueues come to an end before the next tick, a job is enqueued because a minute
that its schedule admits has come since its last success. The one other cause is a schedule that
admits no minute of the year ahead: then an hour that has passed stands in for the minute.

Results:

* `single_of_unhurried`: in such a run a job has at most one enqueue under way;
* `Standing.reckoned_from`: the next run is reckoned from the last success;
* `reckoned_of_success`: a job is enqueued when what was reckoned has come;
* `enqueued_for_cause`: the cause, for an instant whose search speaks for the year ahead;
* `impossible_date_enqueued`: a job whose date never comes is enqueued all the same.
-/

namespace TaskQueue.Schedule.Run

open Time

variable {h : History} {e : Event} {k : Key} {c : Cron.Expression} {a p t n : Instant} {j : Job}

/-- Each tick comes when the enqueues of the ticks before it have come to an end. -/
def Unhurried : History → Prop
  | [] => True
  | e :: h => Unhurried h ∧ (e.tick?.isSome = true → (after h).underWay = [])

instance decidableUnhurried : (h : History) → Decidable (Unhurried h)
  | [] => .isTrue trivial
  | e :: h =>
    have := decidableUnhurried h
    inferInstanceAs (Decidable (Unhurried h ∧ (e.tick?.isSome = true → (after h).underWay = [])))

/-- The years 1678 to 2261. -/
def Usual (t : Instant) : Prop :=
  1678 ≤ (Date.ofDays t.dayNumber).year ∧ (Date.ofDays t.dayNumber).year ≤ 2261

instance (t : Instant) : Decidable (Usual t) := inferInstanceAs (Decidable (_ ∧ _))

/-- **Why a job is enqueued at `t`** that was last enqueued, or else registered, at `p`. -/
inductive Cause (c : Cron.Expression) (p t : Instant) : Prop where
  /-- A minute that the schedule admits has come since. -/
  | cameUp (m : Instant) (whole : m.Whole) (since : p < m) (come : m ≤ t)
      (admitted : c.admits m = true) : Cause c p t
  /-- No minute is admitted until the same date and time of the next year, and an hour has
  passed. -/
  | hourLater (nothing : ∀ m : Instant, m.Whole → p < m →
        m.minuteNumber ≤ Cron.Expression.yearEnd p → c.admits m = false)
      (hour : ∃ q, p.add? (3600 * nanosPerSecond) = some q ∧ q ≤ t) : Cause c p t

/-! ## Next runs in the usual years -/

theorem nextRun_usual (c : Cron.Expression) (ht : Usual t) : ∃ n, c.nextRun t = .ok n := by
  obtain ⟨hlo, hhi⟩ := ht
  have hstart : yearStart (Date.ofDays t.dayNumber).year ≤ t.dayNumber :=
    yearStart_yearOf_le t.dayNumber
  have hend : t.dayNumber < yearStart ((Date.ofDays t.dayNumber).year + 1) :=
    lt_yearStart_succ t.dayNumber
  have hfirst : yearStart 1678 ≤ t.dayNumber := Int.le_trans (yearStart_mono hlo) hstart
  have hlast : t.dayNumber < yearStart 2262 :=
    Int.lt_of_lt_of_le hend (yearStart_mono (by omega))
  rw [show yearStart 1678 = -106650 from by decide] at hfirst
  rw [show yearStart 2262 = 106651 from by decide] at hlast
  refine Cron.Expression.nextRun_exists c ?_ ?_ <;> unfold Instant.dayNumber at * <;> omega

/-- With the ticks in the usual years, the next run is reckoned from the last success. -/
theorem Standing.reckoned_from (hs : Standing k c a h j) (hu : ∀ t, .ticked t ∈ h → Usual t) :
    c.nextRun ((successes k h).headD a) = .ok j.nextRun := by
  have hnext := hs.nextRun
  cases hsucc : successes k h with
  | nil =>
    rw [hsucc, List.nil_append, List.findSome?_cons] at hnext
    refine reckoned_eq_some.mp ?_
    show reckoned c a = _
    cases hr : reckoned c a with
    | none =>
      rw [hr] at hnext
      cases hnext
    | some n =>
      rw [hr] at hnext
      exact hnext
  | cons u us =>
    have hmem : u ∈ starts k h := List.mem_append_right _ (hsucc ▸ List.mem_cons_self)
    obtain ⟨n, hn⟩ := nextRun_usual c (hu u (hs.ticked u hmem))
    rw [hsucc, List.cons_append, List.findSome?_cons, reckoned_eq_some.mpr hn] at hnext
    rw [List.headD_cons, hn, Option.some.inj hnext]

/-! ## One enqueue at a time -/

theorem single_of_unhurried (hp : Possible h) (hm : Made k c a h) (hu : Unhurried h) :
    Throughout (Single k) h := by
  induction hm with
  | now added key =>
    have hall := single_unmade hp.1 (Nat.le_of_eq key.symm)
    exact ⟨hall.last, hall⟩
  | @before h e made ih =>
    obtain ⟨j, j', hj, hj', hs, hturn⟩ := turn_of_made hp made
    have hall := ih hp.1 hu.1
    refine ⟨hall.last.turn hturn fun now he _ => ?_, hall⟩
    subst he
    unfold State.startsOf
    rw [hu.2 rfl]
    rfl

/-! ## The cause -/

/-- The start of an instant's minute. -/
def minuteOf (t : Instant) : Instant :=
  .atSecond (t.minuteNumber * 60) (by
    have hrange := t.inRange
    unfold Instant.minuteNumber minSecond maxSecond at *
    omega)

theorem minuteOf_whole (t : Instant) : (minuteOf t).Whole :=
  ⟨Int.mul_emod_left _ _, rfl⟩

theorem minuteOf_le (t : Instant) : minuteOf t ≤ t := by
  rw [Instant.le_def]
  unfold minuteOf Instant.atSecond Instant.minuteNumber
  dsimp only
  omega

/-- What an instant at or after the next run says. -/
theorem cause_of_reckoned (hr : c.Reckoned p n) (reached : ¬ c.Overlooked p) (hle : n ≤ t) :
    Cause c p t := by
  cases hr with
  | found after within admitted first whole =>
    have hmin : (minuteOf n).minuteNumber = n.minuteNumber := by
      show n.minuteNumber * 60 / 60 = _
      omega
    refine .cameUp (minuteOf n) (minuteOf_whole n) ?_ (Instant.le_trans (minuteOf_le n) hle) ?_
    · rw [Instant.lt_def]
      unfold minuteOf Instant.atSecond Instant.minuteNumber at *
      dsimp only
      omega
    · rw [Cron.Expression.admits_eq_admitsMinute, hmin]
      exact admitted
  | hourLater nothing later =>
    exact .hourLater (fun m whole hlt =>
      Cron.Expression.not_admits_of_barren nothing reached whole hlt) ⟨n, later, hle⟩

/-- **A job is enqueued when what was reckoned has come.** In a run whose ticks lie in the usual
years and wait for the enqueues of those before them, an enqueue that succeeds comes at or after the
instant that was reckoned from the success before it, or else from the registration. -/
theorem reckoned_of_success (hp : Possible (.completed ⟨k, t⟩ true :: h)) (hm : Made k c a h)
    (hunhurried : Unhurried h) (husual : ∀ u, .ticked u ∈ h → Usual u) :
    ∃ n, c.Reckoned ((successes k h).headD a) n ∧ n ≤ t := by
  obtain ⟨j, hj, hs⟩ := standing_of_made hp.1 hm
  have hsingle := single_of_unhurried hp.1 hm hunhurried
  have hdue := (due_of_single hp.1 hm hsingle j hj t (mem_startsOf.mpr hp.2)).1
  exact ⟨j.nextRun, Cron.Expression.nextRun_reckoned (hs.reckoned_from husual), hdue⟩

/-- **A job is enqueued for a cause**, counted from the success before it or from the registration.
Nothing is said of an instant whose year ahead admits a minute that the search does not reach. -/
theorem enqueued_for_cause (hp : Possible (.completed ⟨k, t⟩ true :: h)) (hm : Made k c a h)
    (hunhurried : Unhurried h) (husual : ∀ u, .ticked u ∈ h → Usual u)
    (reached : ¬ c.Overlooked ((successes k h).headD a)) :
    Cause c ((successes k h).headD a) t := by
  obtain ⟨n, hn, hle⟩ := reckoned_of_success hp hm hunhurried husual
  exact cause_of_reckoned hn reached hle

/-! ## A date that never comes -/

/-- Midnight of 30 February. -/
def neverComes : Cron.Expression := ⟨.exactly 0, .exactly 0, .exactly 30, .exactly 2, .any⟩

/-- A job for 30 February is enqueued an hour after its registration. -/
def anHourLater : History :=
  [.ticked (afterNine 3600), .added "digest" "send_digest" neverComes ∅ (afterNine 0)]

theorem made_anHourLater : Made 0 neverComes (afterNine 0) anHourLater := by
  have hok : ((∅ : Table).add "digest" "send_digest" neverComes ∅ (afterNine 0)).isOk = true := by
    decide +kernel
  cases hadd : (∅ : Table).add "digest" "send_digest" neverComes ∅ (afterNine 0) with
  | error f =>
    rw [hadd] at hok
    cases hok
  | ok t => exact .before _ (.now hadd rfl)

theorem possible_anHourLater : Possible (.completed ⟨0, afterNine 3600⟩ true :: anHourLater) := by
  decide +kernel

theorem usual_anHourLater : ∀ u, .ticked u ∈ anHourLater → Usual u := by
  intro u hu
  simp only [anHourLater, List.mem_cons, Event.ticked.injEq, reduceCtorEq, List.not_mem_nil,
    or_false] at hu
  subst hu
  decide

/-- February has no thirtieth day. -/
theorem neverComes_admitsDay (day : Int) : neverComes.admitsDay day = false := by
  obtain ⟨-, -, -, hday⟩ := Date.valid_ofDays day
  by_contra hadm
  simp only [neverComes, Cron.Expression.admitsDay, Cron.Field.admits, Bool.not_eq_false,
    Bool.and_eq_true, beq_iff_eq] at hadm
  obtain ⟨⟨hthirty, hfeb⟩, -⟩ := hadm
  have hshort (y : Int) : daysInMonth y 2 ≤ 29 := by
    unfold daysInMonth monthLengths
    cases isLeapYear y <;> decide
  rw [← hthirty, ← hfeb] at hday
  exact absurd (hday.trans (hshort _)) (by decide)

theorem neverComes_not_overlooked (u : Instant) : ¬ neverComes.Overlooked u := by
  rintro ⟨-, k, -, -, hadm⟩
  rw [Cron.Expression.admitsMinute, neverComes_admitsDay, Bool.and_false] at hadm
  cases hadm

theorem anHourLater_for_cause :
    Possible (.completed ⟨0, afterNine 3600⟩ true :: anHourLater) ∧
      Made 0 neverComes (afterNine 0) anHourLater ∧ Unhurried anHourLater ∧
      (∀ u, .ticked u ∈ anHourLater → Usual u) ∧ ¬ neverComes.Overlooked (afterNine 0) ∧
      Cause neverComes (afterNine 0) (afterNine 3600) := by
  have hunhurried : Unhurried anHourLater := by decide
  have hreached := neverComes_not_overlooked (afterNine 0)
  exact ⟨possible_anHourLater, made_anHourLater, hunhurried, usual_anHourLater, hreached,
    enqueued_for_cause possible_anHourLater made_anHourLater hunhurried usual_anHourLater
      hreached⟩

/-- **A job is enqueued though no minute that its schedule admits has come.** -/
theorem impossible_date_enqueued :
    Possible (.completed ⟨0, afterNine 3600⟩ true :: anHourLater) ∧
      Made 0 neverComes (afterNine 0) anHourLater ∧ Unhurried anHourLater ∧
      (∀ u, .ticked u ∈ anHourLater → Usual u) ∧ successes 0 anHourLater = [] ∧
      ¬ ∃ m : Instant, m.Whole ∧ afterNine 0 < m ∧ m ≤ afterNine 3600 ∧
        neverComes.admits m = true := by
  refine ⟨possible_anHourLater, made_anHourLater, by decide, usual_anHourLater, rfl, ?_⟩
  rintro ⟨m, -, -, -, hadm⟩
  unfold Cron.Expression.admits at hadm
  rw [neverComes_admitsDay, Bool.and_false] at hadm
  cases hadm

end TaskQueue.Schedule.Run
