import TaskQueue.Proofs.Worker.Waiting

/-!
# Writers and readers of due times

A client that delays a task and a worker that retries one write the due time into two headers, and a
promoter reads one of them: the timestamp if it is in the form of the standard, the seconds
otherwise. What a message carried before does not count, since both headers are set anew.

Results:

* `since_of_seconds_eq`: the time between two instants of one second;
* `tells_of_headers`: what both headers tell;
* `due_times_agree`: **what a promoter reads is what was written**, but for what the headers leave
  out.
-/

namespace TaskQueue.Promotion

open Engine Script Time Text

variable {ν : Type} {due t now : Instant} {m : Message}

/-- Within a second, time is the difference of the nanoseconds. -/
theorem since_of_seconds_eq {u : Instant} (h : u.seconds = t.seconds) :
    t.since u = (t.nanos : Int) - u.nanos := by
  have hday : u.secondOfDay = t.secondOfDay := by
    unfold Instant.secondOfDay
    rw [h]
  unfold Instant.since
  simp only [hday, Nat.lt_irrefl, false_and, if_false, h]
  omega

/-- **What a message tells** of the due time that it was given. -/
structure Tells (m : Message) (due : Instant) : Prop where
  /-- In a year with four digits, all but what is finer than a millisecond. -/
  millis : 0 ≤ due.year ∧ due.year ≤ 9999 → dueTime? m = some due.floorMilli
  /-- In any other year, the whole seconds. -/
  seconds : ¬ (0 ≤ due.year ∧ due.year ≤ 9999) →
    dueTime? m = some (Instant.atSecond due.seconds due.inRange)
  /-- The whole seconds have a header of their own. -/
  header : (m.header? Header.scheduledAt).bind integer? = some due.seconds
  /-- It is never told too late, and less than a second too early. -/
  near : ∃ t, dueTime? m = some t ∧ t ≤ due ∧
    (due.isLeap = false → due.since t < nanosPerSecond)

/-- **What both headers tell.** -/
theorem tells_of_headers (hfor : m.header? Header.scheduledFor = some due.renderMillis)
    (hat : m.header? Header.scheduledAt = some due.seconds.repr) : Tells m due := by
  have tells := dueTime?_of_headers hfor hat
  have hrange := due.inRange
  unfold minSecond maxSecond at hrange
  refine ⟨fun hyear => ?_, fun hyear => ?_, ?_, told due, tells, told_le due, fun plain => ?_⟩
  · rw [tells, told, if_pos hyear]
  · rw [tells, told, if_neg hyear]
  · rw [hat, Option.bind_some]
    exact integer?_repr (by omega) (by omega)
  · rw [since_of_seconds_eq (told_near due).1]
    have hnanos := of_decide_eq_false plain
    omega

/-- Someone has sent a message to wait. Its due time is reckoned from the time that the clock
showed. -/
inductive Postpones : Exchanges ν → (Instant → Option Instant) → Prop where
  /-- A client has put a task on a queue, to be run after a delay. -/
  | delayed {topics : Topics} {task : String} {p : Payload} {delay : Span} {es : Exchanges ν}
      {r : Except Client.ClientError String} (late : delay.isZero = false)
      (run : (Client.enqueueDelayed topics task p delay).Ends es r) :
      Postpones es fun now => now.addSpan? delay
  /-- A worker lets a message wait for its next run. -/
  | retried {topics : Topics} {d : Delivery} {t : Trail} {backoff : Span} {es : Exchanges ν}
      {r : Worker.Resolution} (run : (Worker.scheduleRetry topics d t backoff).Ends es r) :
      Postpones es fun now => Worker.dueAfter now backoff

theorem tells_delayedMessage (m : Message) (task : String) (now due : Instant) :
    Tells (Client.delayedMessage m task now due) due := by
  have hset (name : String) : (Client.delayedMessage m task now due).header? name = _ :=
    Message.header?_setHeaders _ _ name
  exact tells_of_headers (hset _) (hset _)

theorem tells_retryCopy (m : Message) (t : Trail) (backoff : Span) (due : Instant) :
    Tells (Worker.retryCopy m t backoff due) due := by
  have hset (name : String) : (Worker.retryCopy m t backoff due).header? name = _ :=
    Message.header?_setHeaders _ _ name
  exact tells_of_headers (hset _) (hset _)

/-- **Writers and readers of due times agree**: of every message that is sent to wait, a promoter
reads the due time without what is finer than a millisecond, or in whole seconds if the year has not
four digits. -/
theorem due_times_agree {es : Exchanges ν} {due? : Instant → Option Instant} {topic : String}
    {x : Except TransportError Unit} (h : Postpones es due?) (sent : ⟨.publish topic m, x⟩ ∈ es) :
    ∃ now due, es.readings = [now] ∧ due? now = some due ∧ Tells m due := by
  have hmem : ⟨.publish topic m, x⟩ ∈ es.transport := List.mem_filter.mpr ⟨sent, rfl⟩
  cases h with
  | delayed late run =>
    cases (Client.enqueueDelayed_ends_iff late).mp run with
    | never => cases hmem
    | unnamed => cases hmem
    | sent y moved named =>
      cases List.mem_singleton.mp hmem
      exact ⟨_, _, rfl, moved, tells_delayedMessage _ _ _ _⟩
  | retried run =>
    obtain ⟨now, clock, -, ⟨-, -, idle⟩ | ⟨due, y, moved, -, routed⟩⟩ :=
      Worker.scheduleRetry_ends run
    · rw [idle] at hmem
      cases hmem
    · obtain ⟨-, rfl⟩ := routed.eq_of_mem hmem
      exact ⟨now, due, clock, moved, tells_retryCopy _ _ _ _⟩

/-! ## A retry into the year 10000 -/

/-- A message that was delayed before: it was due at the start of the year 2020. -/
def overdue : Message :=
  (⟨"resize", [], ∅⟩ : Message).setHeaders
    [(Header.scheduledFor, "2020-01-01T00:00:00.000Z"), (Header.scheduledAt, "1577836800")]

/-- **The headers of an earlier delay do not count**: a retry that waits for a second and a half
from the last millisecond of the year 9999 is due in the year 10000, of which the seconds are
told. -/
theorem overdue_told_again :
    ∃ (es : Exchanges Number.Double) (copy : Message) (now due : Instant),
      Postpones es (fun now => Worker.dueAfter now (.ofMillis 1500)) ∧
      ⟨.publish "images.delayed" copy, .ok ()⟩ ∈ es ∧
      dueTime? overdue = some (Instant.atSecond 1577836800 (by decide)) ∧
      es.readings = [now] ∧ Worker.dueAfter now (.ofMillis 1500) = some due ∧
      due.nanos = 499000000 ∧
      dueTime? copy = some (Instant.atSecond 253402300801 (by decide)) := by
  let now : Instant := ⟨253402300799, 999000000, by decide, by decide, by decide⟩
  let due : Instant := ⟨253402300801, 499000000, by decide, by decide, by decide⟩
  let d : Delivery := ⟨⟨"images", 0, "0"⟩, overdue, 1⟩
  let t : Trail := Trail.start d.position "a" now
  have hdue : Worker.dueAfter now (.ofMillis 1500) = some due := by decide +kernel
  obtain ⟨es, run, clock, sent⟩ : ∃ es : Exchanges Number.Double,
      (Worker.scheduleRetry (.ofQueue "images") d t (.ofMillis 1500)).Ends es (.ok .retried) ∧
        es.readings = [now] ∧
        ⟨.publish "images.delayed" (Worker.retryCopy overdue (t.record .retried now)
          (.ofMillis 1500) due), .ok ()⟩ ∈ es := by
    refine ⟨[⟨.now, now⟩, ⟨.remember d.position.render (t.record .retried now), ()⟩,
      ⟨.publish "images.delayed" _, .ok ()⟩, ⟨.ack d, .ok ()⟩, ⟨.forget d.position.render, ()⟩,
      ⟨.count .retried, ()⟩], ?_, rfl, .tail _ (.tail _ List.mem_cons_self)⟩
    unfold Worker.scheduleRetry
    simp only [request_bind, ends_ask_iff]
    refine ⟨now, _, rfl, ?_⟩
    rw [hdue]
    exact .ask _ _ (.ask _ _ (.ask _ _ (.ask _ _ (.ask _ _ (.done _)))))
  have postponed := Postpones.retried run
  obtain ⟨now', due', clock', moved, tells⟩ := due_times_agree postponed sent
  obtain rfl : now = now' := List.head_eq_of_cons_eq (clock.symm.trans clock')
  obtain rfl : due = due' := Option.some.inj (hdue.symm.trans moved)
  have hyear : ¬ (0 ≤ due.year ∧ due.year ≤ 9999) := by decide +kernel
  exact ⟨es, _, now, due, postponed, sent, by decide +kernel, clock, hdue, rfl,
    tells.seconds hyear⟩

end TaskQueue.Promotion
