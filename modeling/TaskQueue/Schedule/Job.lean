import TaskQueue.Cron.Codec
import TaskQueue.Cron.Scan
import TaskQueue.Task.Payload

/-!
# Jobs

A job puts a task on the queue whenever its schedule comes up. It fires when it is enabled, its next
run has come, and fewer of its enqueues are under way than it may have at once. It moves on to the
next run when an enqueue succeeds, reckoned from the instant at which that enqueue was started.

Out of scope: the enqueue, which runs beside the scheduler and whose end is told to the table.
-/

namespace TaskQueue.Schedule

open Time Json

/-- A job and what has become of it so far. -/
structure Job where
  id : String
  task : String
  schedule : Cron.Expression
  payload : Payload
  /-- The instant at which the last successful enqueue was started. -/
  lastRun : Option Instant
  nextRun : Instant
  enabled : Bool
  maxConcurrent : Nat
  /-- Enqueues that were started and have not come to an end. -/
  inFlight : Nat

namespace Job

/-- A job as it is registered; its first run is the first one after `now`. -/
def make (id task : String) (schedule : Cron.Expression) (p : Payload) (now : Instant) :
    Except Overflow Job := do
  let nextRun ← schedule.nextRun now
  return ⟨id, task, schedule, p, none, nextRun, true, 1, 0⟩

/-- The job fires at `now`. -/
def fires (j : Job) (now : Instant) : Bool :=
  j.enabled && decide (j.nextRun ≤ now) && decide (j.inFlight < j.maxConcurrent)

/-- An enqueue has been started. -/
def begin (j : Job) : Job := { j with inFlight := j.inFlight + 1 }

/-- An enqueue has failed. -/
def release (j : Job) : Job := { j with inFlight := j.inFlight - 1 }

/-- An enqueue that was started at `start` has succeeded. When no next run can be reckoned, the old
one stays. -/
def advance (j : Job) (start : Instant) : Job × Except Overflow Unit :=
  let j := { j.release with lastRun := some start }
  match j.schedule.nextRun start with
  | .ok next => ({ j with nextRun := next }, .ok ())
  | .error e => (j, .error e)

/-- The job as a value. -/
def toValue (j : Job) : Value :=
  .object [("id", encode j.id), ("task_name", encode j.task), ("schedule", encode j.schedule),
    ("payload", j.payload.toValue), ("last_run", encode j.lastRun), ("next_run", encode j.nextRun),
    ("enabled", encode j.enabled), ("max_concurrent", .int j.maxConcurrent),
    ("in_flight", .int j.inFlight)]

end Job

end TaskQueue.Schedule
