import TaskQueue.Proofs.Cron.Search
import TaskQueue.Proofs.Time.Minute

/-!
# The next run

The next run after an instant is a minute that the expression admits, or lies one hour later when no
minute within the year is admitted (`Reckoned`). Either way it lies after the instant. For plain
instants it is monotone. A leap second and an instant beyond the stamps of 64 bits leave odd seconds
in the next run, so that a later instant may have an earlier one.

Results:

* `nextRun_reckoned`: what the next run is;
* `lt_nextRun`: it lies after the instant it is reckoned from;
* `nextRun_mono`: a later plain instant has no earlier next run;
* `nextRun_exists`: there is one, except near the ends of time.
-/

namespace TaskQueue.Cron.Expression

open Time

variable {c : Expression} {u t n n' : Instant}

/-- **How a next run is reckoned** from an instant. -/
inductive Reckoned (c : Expression) (u n : Instant) : Prop where
  /-- The first admitted minute after `u`. -/
  | found (after : u.minuteNumber < n.minuteNumber)
      (within : n.minuteNumber ≤ u.minuteNumber + scanLimit)
      (admitted : c.admitsMinute n.minuteNumber = true)
      (first : ∀ k, u.minuteNumber < k → k < n.minuteNumber → c.admitsMinute k = false)
      (whole : u.Plain → n.Whole) : Reckoned c u n
  /-- No minute within a year is admitted. -/
  | hourLater
      (nothing : ∀ k, u.minuteNumber < k → k ≤ u.minuteNumber + scanLimit →
        c.admitsMinute k = false)
      (later : u.add? (3600 * nanosPerSecond) = some n) : Reckoned c u n

/-! ## The search from an instant -/

/-- The instant that is made from a minute found and the odd seconds of the first candidate. -/
theorem minuteAt_minuteNumber {f : Instant} {m : Int}
    (h : Instant.of? (m * 60 + f.seconds % 60) f.nanos = some n) : n.minuteNumber = m := by
  obtain ⟨hsec, -⟩ := Instant.of?_eq_some h
  unfold Instant.minuteNumber
  omega

/-- The search begins at the next minute. What it finds keeps the odd seconds of that candidate. -/
theorem nextMatch_ok {o : Option Instant} (h : c.nextMatch u = .ok o) :
    ∃ f, u.floorMinute.add? (60 * nanosPerSecond) = some f ∧
      ((∃ m n, c.firstMinute f.minuteNumber = some m ∧
          Instant.of? (m * 60 + f.seconds % 60) f.nanos = some n ∧ o = some n) ∨
        (c.firstMinute f.minuteNumber = none ∧ o = none)) := by
  unfold nextMatch at h
  split at h
  · cases h
  · next f hf =>
    refine ⟨f, hf, ?_⟩
    simp only at h
    split at h
    · next m hm =>
      cases hn : Instant.of? (m * 60 + f.seconds % 60) f.nanos with
      | none =>
        rw [hn] at h
        cases h
      | some n =>
        rw [hn] at h
        exact .inl ⟨m, n, hm, hn, (Except.ok.inj h).symm⟩
    · next hm =>
      split at h
      · exact .inr ⟨hm, (Except.ok.inj h).symm⟩
      · cases h

/-- What the search finds is the first admitted minute of the year ahead. -/
theorem nextMatch_found (h : c.nextMatch u = .ok (some n)) :
    u.minuteNumber < n.minuteNumber ∧ n.minuteNumber ≤ u.minuteNumber + scanLimit ∧
      c.admitsMinute n.minuteNumber = true ∧
      (∀ k, u.minuteNumber < k → k < n.minuteNumber → c.admitsMinute k = false) ∧
      (u.Plain → n.Whole) := by
  obtain ⟨f, hf, ⟨m, n', hm, hn, ho⟩ | ⟨-, ho⟩⟩ := nextMatch_ok h
  · obtain rfl := Option.some.inj ho
    obtain ⟨hnext, -⟩ := Instant.nextMinute hf
    obtain ⟨hle, hlt, hadm, hbefore⟩ := firstMinute_eq_some hm
    have hmin := minuteAt_minuteNumber hn
    refine ⟨by omega, by omega, hmin ▸ hadm, fun k hk hk' => ?_, fun hp => ?_⟩
    · exact hbefore k (by omega) (by omega)
    · obtain ⟨hwhole, hzero⟩ := Instant.nextMinute_plain hp hf
      obtain ⟨hsec, hnanos⟩ := Instant.of?_eq_some hn
      exact ⟨by omega, by omega⟩
  · cases ho

theorem nextMatch_eq_some (h : c.nextMatch u = .ok (some n)) : c.Reckoned u n := by
  obtain ⟨after, within, admitted, first, whole⟩ := nextMatch_found h
  exact .found after within admitted first whole

theorem nextMatch_eq_none (h : c.nextMatch u = .ok none) :
    ∀ k, u.minuteNumber < k → k ≤ u.minuteNumber + scanLimit → c.admitsMinute k = false := by
  obtain ⟨f, hf, ⟨m, n, hm, hn, ho⟩ | ⟨hm, -⟩⟩ := nextMatch_ok h
  · cases ho
  · intro k hk hk'
    obtain ⟨hnext, -⟩ := Instant.nextMinute hf
    exact firstMinute_eq_none hm k (by omega) (by omega)

/-! ## The next run -/

/-- **The next run is an admitted minute**, or lies one hour later when there is none in the year.
-/
theorem nextRun_reckoned (h : c.nextRun u = .ok n) : c.Reckoned u n := by
  unfold nextRun at h
  cases hm : c.nextMatch u with
  | error e =>
    rw [hm] at h
    cases h
  | ok o =>
    rw [hm] at h
    cases o with
    | some n' =>
      obtain rfl : n' = n := Except.ok.inj h
      exact nextMatch_eq_some hm
    | none =>
      refine .hourLater (nextMatch_eq_none hm) ?_
      cases ha : u.add? (3600 * nanosPerSecond) with
      | none =>
        simp only [bind, Except.bind, ha] at h
        cases h
      | some n' =>
        simp only [bind, Except.bind, ha] at h
        rw [Except.ok.inj h]

/-- **The next run lies after the instant** it is reckoned from. -/
theorem lt_nextRun (h : c.nextRun u = .ok n) : u < n := by
  rw [Instant.lt_def]
  cases nextRun_reckoned h with
  | found after =>
    unfold Instant.minuteNumber at after
    omega
  | hourLater nothing later =>
    rw [Instant.add?_seconds (by decide)] at later
    obtain ⟨hsec, -⟩ := Instant.of?_eq_some later
    omega

/-- **A later plain instant has no earlier next run.** -/
theorem nextRun_mono (hu : u.Plain) (ht : t.Plain) (hle : u ≤ t) (h : c.nextRun u = .ok n)
    (h' : c.nextRun t = .ok n') : n ≤ n' := by
  have hlt := lt_nextRun h'
  have hnu := hu.no_leap
  have hnt := ht.no_leap
  rw [Instant.lt_def] at hlt
  rw [Instant.le_def] at hle ⊢
  cases nextRun_reckoned h with
  | found after within admitted first whole =>
    obtain ⟨hsec, hnanos⟩ := whole hu
    -- the minute found from `u` is still to come at `t`, or it has passed
    by_cases hcome : t.minuteNumber < n.minuteNumber
    · cases nextRun_reckoned h' with
      | found after' within' admitted' first' whole' =>
        obtain ⟨hsec', hnanos'⟩ := whole' ht
        have hnot : ¬ n'.minuteNumber < n.minuteNumber := by
          intro hbefore
          rw [first _ (by unfold Instant.minuteNumber at *; omega) hbefore] at admitted'
          cases admitted'
        unfold Instant.minuteNumber at *
        omega
      | hourLater nothing' later' =>
        rw [nothing' _ hcome (by unfold Instant.minuteNumber at *; omega)] at admitted
        cases admitted
    · unfold Instant.minuteNumber at *
      omega
  | hourLater nothing later =>
    rw [Instant.add?_seconds (by decide)] at later
    obtain ⟨hsec, hnanos⟩ := Instant.of?_eq_some later
    rw [Nat.mod_eq_of_lt hnu] at hnanos
    cases nextRun_reckoned h' with
    | found after' within' admitted' first' whole' =>
      have hnot : ¬ n'.minuteNumber ≤ u.minuteNumber + scanLimit := by
        intro hwithin
        rw [nothing _ (by unfold Instant.minuteNumber at *; omega) hwithin] at admitted'
        cases admitted'
      unfold Instant.minuteNumber scanLimit minutesPerDay at *
      omega
    | hourLater nothing' later' =>
      rw [Instant.add?_seconds (by decide)] at later'
      obtain ⟨hsec', hnanos'⟩ := Instant.of?_eq_some later'
      rw [Nat.mod_eq_of_lt hnt] at hnanos'
      omega

/-! ## That there is one -/

/-- The instant made from a minute and the odd seconds of another instant. -/
theorem minuteAt_exists {f : Instant} {m : Int} (hm : -2000000000 ≤ m ∧ m ≤ 2000000000)
    (hf : f.nanos < nanosPerSecond) :
    ∃ n, Instant.of? (m * 60 + f.seconds % 60) f.nanos = some n :=
  Option.isSome_iff_exists.mp (Instant.of?_isSome (by unfold minSecond maxSecond; omega) hf)

/-- The search has a result, except near the ends of time. -/
theorem nextMatch_exists (c : Expression) (hlo : -100000000000 ≤ u.seconds)
    (hhi : u.seconds ≤ 100000000000) : ∃ o, c.nextMatch u = .ok o := by
  have hfloor := Instant.floorMinute_minuteNumber u
  unfold nextMatch
  obtain ⟨f, hf⟩ : ∃ f, u.floorMinute.add? (60 * nanosPerSecond) = some f := by
    rw [Instant.add?_seconds (by decide)]
    refine Option.isSome_iff_exists.mp (Instant.of?_isSome ?_ (Nat.mod_lt _ (by decide)))
    unfold Instant.minuteNumber minSecond maxSecond at *
    omega
  obtain ⟨hnext, hnanos⟩ := Instant.nextMinute hf
  have hu : -2000000000 ≤ u.minuteNumber ∧ u.minuteNumber ≤ 1900000000 := by
    unfold Instant.minuteNumber
    omega
  simp only [hf]
  cases hm : c.firstMinute f.minuteNumber with
  | some m =>
    obtain ⟨hle, hlt, -, -⟩ := firstMinute_eq_some hm
    obtain ⟨n, hn⟩ := minuteAt_exists (m := m)
      (by unfold scanLimit minutesPerDay at *; omega) hnanos
    exact ⟨some n, by simp only [hn]; rfl⟩
  | none =>
    obtain ⟨n, hn⟩ := minuteAt_exists (m := f.minuteNumber + scanLimit)
      (by unfold scanLimit minutesPerDay; omega) hnanos
    exact ⟨none, by simp only [hn]; rfl⟩

/-- **There is a next run** after any instant that is not near the ends of time. -/
theorem nextRun_exists (c : Expression) (hlo : -100000000000 ≤ u.seconds)
    (hhi : u.seconds ≤ 100000000000) : ∃ n, c.nextRun u = .ok n := by
  obtain ⟨o, ho⟩ := nextMatch_exists c hlo hhi
  unfold nextRun
  rw [ho]
  cases o with
  | some n => exact ⟨n, rfl⟩
  | none =>
    obtain ⟨n, hn⟩ : ∃ n, u.add? (3600 * nanosPerSecond) = some n := by
      rw [Instant.add?_seconds (by decide)]
      refine Option.isSome_iff_exists.mp (Instant.of?_isSome ?_ (Nat.mod_lt _ (by decide)))
      unfold minSecond maxSecond
      omega
    exact ⟨n, by simp only [bind, Except.bind, hn]; rfl⟩

end TaskQueue.Cron.Expression
