import TaskQueue.Proofs.Cron.Yearly
import TaskQueue.Proofs.Time.Gregorian

/-!
# The first match by the calendar

What an expression asks for is told here without the search and without the arithmetic of dates:
the calendar and the clock show a date, a weekday, an hour and a minute, and every fixed field names
the one that is shown (`Matches`). The search returns the first whole minute of the year ahead that
matches in this sense, and nothing exactly when there is none. Two searches from plain instants
keep their order, whichever of them come to nothing and fall back to the hour after.

Results:

* `matches_iff`: an expression admits the instants that match it;
* `nextMatch_first`: the search finds the first match, and nothing only when there is none;
* `nextRun_increasing`: the next run lies ahead, and comes no earlier from a later instant.
-/

namespace TaskQueue.Cron

open Time

/-! ## What an expression asks for -/

/-- Nothing else than this value is fixed. -/
def Field.Agrees (f : Field) (v : Nat) : Prop := ∀ n, f = .exactly n → n = v

theorem Field.agrees_iff {f : Field} {v : Nat} : f.Agrees v ↔ f.admits v = true := by
  cases f <;> simp [Agrees, admits]

namespace Expression

variable {e : Expression} {s t u : Instant}

/-- **The instant matches**: the five fields agree with what the calendar and the clock show. -/
inductive Matches (e : Expression) (t : Instant) : Prop where
  | intro (d : Date) (weekday hour minute : Nat) (shows : Shows t d weekday hour minute)
      (agreesMinute : e.minute.Agrees minute) (agreesHour : e.hour.Agrees hour)
      (agreesDay : e.day.Agrees d.day) (agreesMonth : e.month.Agrees d.month)
      (agreesWeekday : e.weekday.Agrees weekday)

/-- **An expression admits the instants that match it.** -/
theorem matches_iff : e.Matches t ↔ e.admits t = true := by
  simp only [admits_iff, ← Field.agrees_iff]
  constructor
  · rintro ⟨d, weekday, hour, minute, shows, hminute, hhour, hday, hmonth, hweekday⟩
    obtain ⟨rfl, rfl, rfl, rfl⟩ := shows_iff.mp shows
    exact ⟨hminute, hhour, hday, hmonth, hweekday⟩
  · rintro ⟨hminute, hhour, hday, hmonth, hweekday⟩
    exact ⟨_, _, _, _, shows_iff.mpr ⟨rfl, rfl, rfl, rfl⟩, hminute, hhour, hday, hmonth, hweekday⟩

/-! ## The minutes ahead -/

/-- A whole minute after `u`, and at most 365 days after the minute of `u` began. -/
structure Ahead (u t : Instant) : Prop where
  whole : t.Whole
  later : u < t
  within : t.seconds ≤ u.minuteNumber * 60 + 365 * 86400

/-- Of the minutes ahead, `t` is the first one that matches. -/
structure FirstMatch (e : Expression) (u t : Instant) : Prop where
  ahead : Ahead u t
  matched : e.Matches t
  first : ∀ s, s.Whole → u < s → s < t → ¬ e.Matches s

/-- Whole minutes are in the order of their numbers. -/
theorem lt_iff_minuteNumber (ht : t.Whole) : u < t ↔ u.minuteNumber < t.minuteNumber := by
  obtain ⟨hsec, hnanos⟩ := ht
  rw [Instant.lt_def]
  unfold Instant.minuteNumber
  omega

theorem ahead_iff (ht : t.Whole) : Ahead u t ↔
    u.minuteNumber < t.minuteNumber ∧ t.minuteNumber ≤ u.minuteNumber + scanLimit := by
  have hlt := lt_iff_minuteNumber (u := u) ht
  have hwithin : t.seconds ≤ u.minuteNumber * 60 + 365 * 86400 ↔
      t.minuteNumber ≤ u.minuteNumber + scanLimit := by
    obtain ⟨hsec, -⟩ := ht
    unfold Instant.minuteNumber scanLimit minutesPerDay
    omega
  exact ⟨fun h => ⟨hlt.mp h.later, hwithin.mp h.within⟩,
    fun h => ⟨ht, hlt.mpr h.1, hwithin.mpr h.2⟩⟩

/-- There is one first match at most. -/
theorem FirstMatch.unique (ht : e.FirstMatch u t) (hs : e.FirstMatch u s) : s = t := by
  refine Instant.le_antisymm (Decidable.not_not.mp fun hts => ?_)
    (Decidable.not_not.mp fun hst => ?_)
  · exact hs.first t ht.ahead.whole ht.ahead.later hts ht.matched
  · exact ht.first s hs.ahead.whole hs.ahead.later hst hs.matched

/-! ## The search -/

/-- A plain instant is far from the ends of time. -/
theorem far_of_plain (hu : u.Plain) : -100000000000 ≤ u.seconds ∧ u.seconds ≤ 100000000000 := by
  have hlower := hu.lower
  have hupper := hu.upper
  have hnanos := hu.no_leap
  unfold nanosPerSecond at *
  omega

theorem nextMatch_firstMatch (hu : u.Plain) (h : e.nextMatch u = .ok (some t)) :
    e.FirstMatch u t := by
  obtain ⟨after, within, admitted, first, whole⟩ := nextMatch_found h
  refine ⟨(ahead_iff (whole hu)).mpr ⟨after, within⟩, ?_, fun s hs hus hst hmatch => ?_⟩
  · rwa [matches_iff, admits_eq_admitsMinute]
  · have hfalse := first s.minuteNumber ((lt_iff_minuteNumber hs).mp hus)
      ((lt_iff_minuteNumber (whole hu)).mp hst)
    rw [matches_iff, admits_eq_admitsMinute, hfalse] at hmatch
    cases hmatch

theorem not_matches_of_nextMatch (h : e.nextMatch u = .ok none) (hs : Ahead u s) :
    ¬ e.Matches s := by
  obtain ⟨after, within⟩ := (ahead_iff hs.whole).mp hs
  rw [matches_iff, admits_eq_admitsMinute, nextMatch_eq_none h _ after within]
  exact Bool.false_ne_true

/-- **The search finds the first match**: the first whole minute after the instant, within 365 days
of the start of its minute, that the expression matches by the calendar and the clock. It finds
nothing exactly when none of these minutes matches. -/
theorem nextMatch_first (e : Expression) (hu : u.Plain) :
    (∀ t, e.admits t = true ↔ e.Matches t) ∧
      (∀ t, e.nextMatch u = .ok (some t) ↔ e.FirstMatch u t) ∧
      (e.nextMatch u = .ok none ↔ ∀ s, Ahead u s → ¬ e.Matches s) := by
  obtain ⟨hlo, hhi⟩ := far_of_plain hu
  obtain ⟨o, ho⟩ := nextMatch_exists e hlo hhi
  refine ⟨fun t => matches_iff.symm, fun t => ⟨nextMatch_firstMatch hu, fun ht => ?_⟩,
    fun h s => not_matches_of_nextMatch h, fun hnone => ?_⟩
  · cases o with
    | none => exact absurd ht.matched (not_matches_of_nextMatch ho ht.ahead)
    | some s => rw [ho, ht.unique (nextMatch_firstMatch hu ho)]
  · cases o with
    | none => exact ho
    | some s =>
      have hs := nextMatch_firstMatch hu ho
      exact absurd hs.matched (hnone s hs.ahead)

/-- Midnight on 2 March 2027. -/
def secondOfMarch2027 : Instant := Instant.atSecond 1803945600 (by decide)

/-- Midnight on 1 March 2028. -/
def march2028 : Instant := Instant.atSecond 1835481600 (by decide)

theorem plain_secondOfMarch2027 : secondOfMarch2027.Plain :=
  Instant.plain_of_year (by decide) (by decide) (by decide)

theorem nextMatch_secondOfMarch2027 :
    firstOfMarch.nextMatch secondOfMarch2027 = .ok (some march2028) := by decide +kernel

/-- From 2 March 2027 the first of March is found in the next year, 365 days ahead. -/
theorem firstMatch_march2028 :
    secondOfMarch2027.Plain ∧ firstOfMarch.nextMatch secondOfMarch2027 = .ok (some march2028) ∧
      firstOfMarch.FirstMatch secondOfMarch2027 march2028 := by
  have hfirst := nextMatch_first firstOfMarch plain_secondOfMarch2027
  exact ⟨plain_secondOfMarch2027, nextMatch_secondOfMarch2027,
    (hfirst.2.1 march2028).mp nextMatch_secondOfMarch2027⟩

/-! ## Two searches -/

/-- **The next run lies ahead, and comes no earlier from a later instant.** It is the first match,
or the hour after when the year ahead has none; the two may be of either kind. -/
theorem nextRun_increasing (e : Expression) (hu : u.Plain) (ht : t.Plain) (hle : u ≤ t) :
    ∃ n n', e.nextRun u = .ok n ∧ e.nextRun t = .ok n' ∧ u < n ∧ t < n' ∧ n ≤ n' := by
  obtain ⟨n, hn⟩ := nextRun_exists e (far_of_plain hu).1 (far_of_plain hu).2
  obtain ⟨n', hn'⟩ := nextRun_exists e (far_of_plain ht).1 (far_of_plain ht).2
  exact ⟨n, n', hn, hn', lt_nextRun hn, lt_nextRun hn', nextRun_mono hu ht hle hn hn'⟩

/-- On 1 March 2027 the search comes to nothing, and a day later it reaches the next year's. -/
theorem nextRun_march2027_le :
    (march2027.Plain ∧ secondOfMarch2027.Plain ∧ march2027 ≤ secondOfMarch2027) ∧
      firstOfMarch.nextMatch march2027 = .ok none ∧
      firstOfMarch.nextMatch secondOfMarch2027 = .ok (some march2028) ∧
      ∃ n n', firstOfMarch.nextRun march2027 = .ok n ∧
        firstOfMarch.nextRun secondOfMarch2027 = .ok n' ∧
        march2027 < n ∧ secondOfMarch2027 < n' ∧ n ≤ n' := by
  have hplain : march2027.Plain := Instant.plain_of_year (by decide) (by decide) (by decide)
  have hle : march2027 ≤ secondOfMarch2027 := by decide
  exact ⟨⟨hplain, plain_secondOfMarch2027, hle⟩, by decide +kernel, nextMatch_secondOfMarch2027,
    nextRun_increasing firstOfMarch hplain plain_secondOfMarch2027 hle⟩

end Expression

end TaskQueue.Cron
