import TaskQueue.Proofs.Promotion.Delay
import TaskQueue.Proofs.Retry.Backoff
import TaskQueue.Proofs.Worker.Failing
import TaskQueue.Proofs.Worker.Resolution

/-!
# How long a retry waits

A failed message whose task gets another run is published to wait until the clock has moved on by
its backoff. Backoffs may be longer than any move of the clock, and a shorter one may still lead
beyond the last instant. So one of four things becomes of a granted retry (`Granted`): it waits, it
is due at once, its due time is no instant, or it has no backoff.

Results:

* `process_granted`: what becomes of a retry that the policy grants;
* `Granted.waitsOut_of_maxBackoff_le`: a retry waits when no delay is longer than two hundred
  thousand years;
* `retry_waitsOut_iff`: **a retry waits out its backoff** exactly when the backoff has a value and
  the clock can be moved by it;
* `retried_at_once`: a retry that is due at once although its backoff is half a billion years.
-/

namespace TaskQueue.Worker

open Time Engine Retry Script Promotion

variable {now due : Instant} {backoff : Span}

/-! ## Due times -/

theorem dueAfter_eq_none_iff :
    dueAfter now backoff = none ↔
      backoff.nanos ≤ Instant.maxMove ∧ now.add? backoff.nanos = none := by
  unfold dueAfter
  split
  · simp [*]
  · simp [*, Instant.add?_zero]

/-- A retry is due after its backoff, or at once when the backoff is too long for a move. -/
theorem dueAfter_eq_some (h : dueAfter now backoff = some due) :
    now.addSpan? backoff = some due ∨ Instant.maxMove < backoff.nanos ∧ due = now := by
  unfold dueAfter at h
  unfold Instant.addSpan?
  split at h
  · next hle => exact .inl (by rw [if_pos hle, h])
  · next hlt =>
    rw [Instant.add?_zero] at h
    exact .inr ⟨Nat.not_le.mp hlt, (Option.some.inj h).symm⟩

theorem addSpan?_eq_some (h : now.addSpan? backoff = some due) :
    backoff.nanos ≤ Instant.maxMove ∧ now.add? backoff.nanos = some due := by
  unfold Instant.addSpan? at h
  split at h
  · exact ⟨‹_›, h⟩
  · cases h

section

variable {p : Policy Rat} {c : Config} {d : Delivery} {t : Trail}

/-- What a copy tells that waits. -/
theorem dueTime?_retryCopy (m : Message) (t : Trail) (backoff : Span) (due : Instant) :
    dueTime? (retryCopy m t backoff due) = some (told due) := by
  have hset (name : String) : (retryCopy m t backoff due).header? name = _ :=
    Message.header?_setHeaders _ _ name
  exact dueTime?_of_headers (hset _) (hset _)

/-! ## What becomes of a retry -/

/-- A copy was published to wait, and the delivery was acknowledged. -/
def Delayed (c : Config) (d : Delivery) (es : Exchanges Rat) (r : Resolution) (copy : Message) :
    Prop :=
  r = .ok .retried ∧
    es.transport = [⟨.publish c.topics.delayed copy, .ok ()⟩, ⟨.ack d, .ok ()⟩]

/-- **What becomes of a retry** that is granted after `n` failures. The last time that the worker
reads the clock is when it reckons the due time. -/
inductive Granted (c : Config) (p : Policy Rat) (draw : Draw Rat) (d : Delivery) (n : Nat)
    (es : Exchanges Rat) (r : Resolution) : Prop
  | waits {backoff : Span} {now due : Instant} {copy : Message}
      (wait : p.backoff draw n = .ok backoff) (clock : es.readings.getLast? = some now)
      (moved : now.addSpan? backoff = some due) (delayed : Delayed c d es r copy)
      (tells : dueTime? copy = some (told due)) : Granted c p draw d n es r
  /-- The backoff is too long for a move and does not count. -/
  | atOnce {backoff : Span} {now : Instant} {copy : Message}
      (wait : p.backoff draw n = .ok backoff) (clock : es.readings.getLast? = some now)
      (long : Instant.maxMove < backoff.nanos) (delayed : Delayed c d es r copy)
      (tells : dueTime? copy = some (told now)) : Granted c p draw d n es r
  /-- The due time is no instant. -/
  | neverDue {backoff : Span} {now : Instant} (wait : p.backoff draw n = .ok backoff)
      (clock : es.readings.getLast? = some now) (short : backoff.nanos ≤ Instant.maxMove)
      (beyond : now.add? backoff.nanos = none) (outcome : r = .error (.overflow .beyondRange))
      (idle : es.transport = []) : Granted c p draw d n es r
  /-- There is nothing to draw a random spread from. -/
  | noBackoff {e : BackoffError} (wait : p.backoff draw n = .error e)
      (random : p.jitterMode = .random) (negative : p.multiplier < 0)
      (outcome : r = .error (.backoff e)) (idle : es.transport = []) : Granted c p draw d n es r

variable {draw : Draw Rat} {token : CancelToken} {handled : String → Bool} {es : Exchanges Rat}
  {r : Resolution} {run : TaskRun} {error : String}

/-- **A retry that the policy grants** takes one of the four ways, with a broker that does not fail.
-/
theorem process_granted (h : (process c draw token d).Ends es r) (smooth : Smooth p handled es)
    (ran : run ∈ es.runs) (failed : run.ending.error? = some error)
    (again : p.retries ((priorFailures p d.message).toNat + 1) error = true) :
    Granted c p draw d ((priorFailures p d.message).toNat + 1) es r := by
  obtain ⟨p', id, receivedAt, resolved, hp, hclock, hsent, hruns, hfailing⟩ := process_failing h
  obtain rfl : p' = p := smooth _ hp
  rw [hruns] at ran
  cases hfailing with
  | unread unread idle clock sent givenUp =>
    rw [idle] at ran
    cases ran
  | well silent ended => exact absurd ((ended run ran).symm.trans failed) nofun
  | @ran payload ending error' parsedAt startedAt failedAt rest read hran hfailed clock sent
      decided =>
    rw [hran] at ran
    obtain rfl := List.mem_singleton.mp ran
    obtain rfl : error' = error := Option.some.inj (hfailed.symm.trans failed)
    have htrail := ranTrail_trailOf (firstTrail_trailOf p' d id receivedAt) error' parsedAt
      startedAt failedAt
    obtain ⟨-, ⟨hret, -⟩ | ⟨-, e, hb, hr, hidle⟩ | ⟨-, backoff, now, hb, hnow, hdue⟩⟩ :=
      handleFailure_ends htrail.failures rfl decided
    · rw [hret] at again
      cases again
    · obtain ⟨random, negative⟩ := Policy.backoff_error hb
      exact .noBackoff hb random negative hr (hsent.trans (sent.trans hidle))
    · have hlast : es.readings.getLast? = some now := by
        rw [hclock, clock, hnow]
        rfl
      rcases hdue with ⟨hnone, hr, hidle⟩ | ⟨due, x, hdue, hr, hrouted⟩
      · obtain ⟨short, beyond⟩ := dueAfter_eq_none_iff.mp hnone
        exact .neverDue hb hlast short beyond hr (hsent.trans (sent.trans hidle))
      · rw [← sent, ← hsent] at hrouted
        obtain rfl := smooth.routed hrouted
        have hdelayed := And.intro hr hrouted.of_ok
        have tells := dueTime?_retryCopy d.message
          ((ranTrail (firstTrail p' d id receivedAt) error' parsedAt startedAt failedAt).record
            .retried now) backoff due
        rcases dueAfter_eq_some hdue with moved | ⟨long, rfl⟩
        · exact .waits hb hlast moved hdelayed tells
        · exact .atOnce hb hlast long hdelayed tells

/-! ## The result -/

/-- The delivery is retried, and what its copy tells is not before the backoff has passed since the
last reading of the clock, up to the second. -/
def WaitsOut (c : Config) (p : Policy Rat) (draw : Draw Rat) (d : Delivery) (n : Nat)
    (es : Exchanges Rat) (r : Resolution) : Prop :=
  ∃ copy backoff now t, Delayed c d es r copy ∧ p.backoff draw n = .ok backoff ∧
    es.readings.getLast? = some now ∧ dueTime? copy = some t ∧
    now.seconds + ((now.nanos % nanosPerSecond + backoff.nanos) / nanosPerSecond : Nat) ≤ t.seconds

theorem Granted.waitsOut_iff {n : Nat} (h : Granted c p draw d n es r) :
    WaitsOut c p draw d n es r ↔ ∃ backoff now, p.backoff draw n = .ok backoff ∧
      es.readings.getLast? = some now ∧ (now.addSpan? backoff).isSome = true := by
  cases h with
  | @waits backoff now due copy wait clock moved delayed tells =>
    have hmoved := Instant.seconds_of_add? (addSpan?_eq_some moved).2
    refine iff_of_true ⟨copy, backoff, now, _, delayed, wait, clock, tells, ?_⟩
      ⟨backoff, now, wait, clock, by rw [moved]; rfl⟩
    rw [(told_near due).1, hmoved]
  | @atOnce backoff now copy wait clock long delayed tells =>
    refine iff_of_false ?_ ?_
    · rintro ⟨copy', backoff', now', t, delayed', wait', clock', tells', hle⟩
      -- there is only one copy, one backoff and one last reading
      cases wait.symm.trans wait'
      cases clock.symm.trans clock'
      cases delayed.2.symm.trans delayed'.2
      cases tells.symm.trans tells'
      rw [(told_near now).1] at hle
      unfold Instant.maxMove nanosPerSecond at *
      omega
    · rintro ⟨backoff', now', wait', -, moved⟩
      cases wait.symm.trans wait'
      obtain ⟨due, moved⟩ := Option.isSome_iff_exists.mp moved
      exact Nat.not_le.mpr long (addSpan?_eq_some moved).1
  | @neverDue backoff now wait clock short beyond outcome idle =>
    refine iff_of_false ?_ ?_
    · rintro ⟨copy', backoff', now', t, delayed', -⟩
      cases outcome.symm.trans delayed'.1
    · rintro ⟨backoff', now', wait', clock', moved⟩
      cases wait.symm.trans wait'
      cases clock.symm.trans clock'
      obtain ⟨due, moved⟩ := Option.isSome_iff_exists.mp moved
      cases beyond.symm.trans (addSpan?_eq_some moved).2
  | noBackoff wait random negative outcome idle =>
    refine iff_of_false ?_ ?_
    · rintro ⟨copy', backoff', now', t, -, wait', -⟩
      cases wait.symm.trans wait'
    · rintro ⟨backoff', now', wait', -⟩
      cases wait.symm.trans wait'

/-- Ordinary delays are waited out: none is longer than two hundred thousand years, the clock is
before the year 10000, and every backoff has a value. -/
theorem Granted.waitsOut_of_maxBackoff_le {n : Nat} (h : Granted c p draw d n es r)
    (hvalue : p.jitterMode = .deterministic ∨ 0 ≤ p.multiplier)
    (hmax : p.maxBackoff ≤ .ofSeconds 6307200000000) (years : ∀ t ∈ es.readings, t.year ≤ 9999) :
    WaitsOut c p draw d n es r := by
  have movable {backoff : Span} {now : Instant} (wait : p.backoff draw n = .ok backoff)
      (clock : es.readings.getLast? = some now) :
      backoff.nanos ≤ Instant.maxMove ∧ (now.add? backoff.nanos).isSome = true := by
    have hbackoff : backoff.nanos ≤ 6307200000000 * 1000000000 :=
      Nat.le_trans (Policy.backoff_le_maxBackoff wait) hmax
    have hnow := Instant.seconds_lt_of_year (years now (List.mem_of_getLast? clock))
    have hn := now.nanos_lt
    refine ⟨by unfold Instant.maxMove; omega, Instant.add?_isSome ?_⟩
    unfold nanosPerSecond maxSecond
    omega
  refine h.waitsOut_iff.mpr ?_
  cases h with
  | waits wait clock moved delayed tells => exact ⟨_, _, wait, clock, by rw [moved]; rfl⟩
  | atOnce wait clock long => exact absurd (movable wait clock).1 (Nat.not_le.mpr long)
  | neverDue wait clock short beyond =>
    have hsome := (movable wait clock).2
    rw [beyond] at hsome
    cases hsome
  | noBackoff wait random negative =>
    rcases hvalue with hmode | hmult
    · rw [random] at hmode
      cases hmode
    · exact absurd negative (not_lt.mpr hmult)

/-- **A retry waits out its backoff** exactly when the backoff has a value and the clock can be
moved by it, and so when its delays are ordinary ones. Otherwise it is due at once, or the worker
ends without an outcome. -/
theorem retry_waitsOut_iff (h : (process c draw token d).Ends es r) (smooth : Smooth p handled es)
    (ran : run ∈ es.runs) (failed : run.ending.error? = some error)
    (again : p.retries ((priorFailures p d.message).toNat + 1) error = true) :
    Granted c p draw d ((priorFailures p d.message).toNat + 1) es r ∧
      (WaitsOut c p draw d ((priorFailures p d.message).toNat + 1) es r ↔
        ∃ backoff now, p.backoff draw ((priorFailures p d.message).toNat + 1) = .ok backoff ∧
          es.readings.getLast? = some now ∧ (now.addSpan? backoff).isSome = true) ∧
      ((p.jitterMode = .deterministic ∨ 0 ≤ p.multiplier) →
        p.maxBackoff ≤ .ofSeconds 6307200000000 → (∀ t ∈ es.readings, t.year ≤ 9999) →
        WaitsOut c p draw d ((priorFailures p d.message).toNat + 1) es r) :=
  have granted := process_granted h smooth ran failed again
  ⟨granted, granted.waitsOut_iff, granted.waitsOut_of_maxBackoff_le⟩

end

/-! ## A first failure -/

/-- The first failure of a task is followed by a retry. -/
theorem exists_first_retry {p : Policy Rat} {draw : Draw Rat} {backoff : Span} {now due : Instant}
    (again : p.retries 1 "busy" = true) (wait : p.backoff draw 1 = .ok backoff)
    (onTime : dueAfter now backoff = some due) :
    ∃ (es : Exchanges Rat) (copy : Message),
      (process plainConfig draw .never firstDelivery).Ends es (.ok .retried) ∧
        Smooth p (fun _ => true) es ∧ firstRun p ∈ es.runs ∧ es.readings = List.replicate 5 now ∧
        Delayed plainConfig firstDelivery es (.ok .retried) copy ∧
        dueTime? copy = some (told due) := by
  have hfailures := failures_firstFailure p now
  have failure : (handleFailure plainConfig.topics p draw firstDelivery
      (firstFailure p now)).Ends _ (.ok .retried) :=
    handleFailure_retried (by rw [hfailures]; exact again) (by rw [hfailures]; exact wait) onTime
  exact ⟨_, _, process_firstDelivery failure, by simp [Smooth, Regular], List.mem_cons_self, rfl,
    ⟨rfl, rfl⟩, dueTime?_retryCopy _ _ _ _⟩

/-- Noon on 2 March 2026. -/
def noon : Instant := Instant.atSecond 1772452800 (by decide)

/-- A retry that waits for a second. -/
theorem retry_waits_a_second :
    ∃ es : Exchanges Rat,
      (process plainConfig id .never firstDelivery).Ends es (.ok .retried) ∧
        Smooth threeRuns (fun _ => true) es ∧ firstRun threeRuns ∈ es.runs ∧
        (firstRun threeRuns).ending.error? = some "busy" ∧
        threeRuns.retries ((priorFailures threeRuns firstDelivery.message).toNat + 1) "busy" =
          true ∧
        WaitsOut plainConfig threeRuns id firstDelivery
          ((priorFailures threeRuns firstDelivery.message).toNat + 1) es (.ok .retried) := by
  obtain ⟨due, hdue⟩ : ∃ due, dueAfter noon (.ofSeconds 1) = some due := ⟨_, rfl⟩
  obtain ⟨es, copy, h, smooth, ran, clock, -⟩ :=
    exists_first_retry rfl (threeRuns_backoff id) hdue
  have hn := priorFailures_firstDelivery threeRuns
  have again : threeRuns.retries
      ((priorFailures threeRuns firstDelivery.message).toNat + 1) "busy" = true := by
    rw [hn]
    rfl
  refine ⟨es, h, smooth, ran, rfl, again, ?_⟩
  refine (retry_waitsOut_iff h smooth ran rfl again).2.1.mpr ⟨.ofSeconds 1, noon, ?_, ?_, rfl⟩
  · rw [hn]
    exact threeRuns_backoff id
  · rw [clock]
    rfl

/-- Delays of half a billion years. -/
def ages : Policy Rat :=
  ⟨3, .ofSeconds 18446744073709551, .ofSeconds 18446744073709551, 2, 0, .deterministic, [], []⟩

theorem ages_backoff (draw : Draw Rat) :
    ages.backoff draw 1 = .ok (.ofSeconds 18446744073709551) := by
  have hbase : ages.baseDelay 1 = 18446744073709551000 := by
    have hmillis : ages.initialBackoff.millis = 18446744073709551000 ∧
        ages.maxBackoff.millis = 18446744073709551000 := by decide
    simp [Policy.baseDelay_eq, Policy.ceiling, hmillis]
  have hceiling : ages.ceiling = 18446744073709551000 := by decide +kernel
  have hpart : Number.Arithmetic.clampUnit ages.jitterFraction = 0 := by decide +kernel
  rw [Policy.backoff_eq_steadyDelay rfl, Policy.steadyDelay, if_neg (by decide), Policy.spreadOut,
    hbase, hceiling, hpart]
  decide +kernel

/-- **A retry that is due at once** although its backoff is half a billion years. -/
theorem retried_at_once :
    ∃ (es : Exchanges Rat) (copy : Message),
      (process plainConfig id .never firstDelivery).Ends es (.ok .retried) ∧
        Smooth ages (fun _ => true) es ∧ firstRun ages ∈ es.runs ∧
        (firstRun ages).ending.error? = some "busy" ∧
        ages.retries ((priorFailures ages firstDelivery.message).toNat + 1) "busy" = true ∧
        es.readings = List.replicate 5 noon ∧
        Delayed plainConfig firstDelivery es (.ok .retried) copy ∧ dueTime? copy = some noon ∧
        ¬ WaitsOut plainConfig ages id firstDelivery
          ((priorFailures ages firstDelivery.message).toNat + 1) es (.ok .retried) := by
  obtain ⟨es, copy, h, smooth, ran, clock, delayed, tells⟩ :=
    exists_first_retry rfl (ages_backoff id) (show dueAfter noon _ = some noon by decide +kernel)
  have hn := priorFailures_firstDelivery ages
  have again : ages.retries ((priorFailures ages firstDelivery.message).toNat + 1) "busy" =
      true := by
    rw [hn]
    rfl
  have granted := process_granted h smooth ran rfl again
  refine ⟨es, copy, h, smooth, ran, rfl, again, clock, delayed,
    tells.trans (congrArg some (by decide +kernel)), fun waits => ?_⟩
  -- the clock cannot be moved by so much
  obtain ⟨backoff, now, wait, -, moved⟩ := granted.waitsOut_iff.mp waits
  rw [hn, ages_backoff] at wait
  cases wait
  have hlong : ¬ (Span.ofSeconds 18446744073709551).nanos ≤ Instant.maxMove := by decide
  rw [Instant.addSpan?, if_neg hlong] at moved
  cases moved

end TaskQueue.Worker
