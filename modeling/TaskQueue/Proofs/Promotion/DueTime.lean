import TaskQueue.Promotion.Loop
import TaskQueue.Proofs.Client.Enqueue
import TaskQueue.Proofs.Message.Copies
import TaskQueue.Proofs.Time.Minute
import TaskQueue.Proofs.Time.Rfc3339

/-!
# What the headers tell of a due time

A client tells the due time of a delayed task twice, and a worker does so for a task that waits for
its next run: in a timestamp, without what is finer than a millisecond, and in seconds. A promoter
goes by the timestamp if it can read it, which it cannot when the year has not four digits, and by
the seconds otherwise.

Results:

* `told_le`, `told_eq_iff`: what is told is not late, and what the headers leave out;
* `dueTime?_of_headers`: **what a message tells** that carries a due time in both headers.
-/

namespace TaskQueue.Promotion

open Time Text

variable {due now : Instant} {m : Message}

/-- What the headers of a delayed task tell of its due time. -/
def told (due : Instant) : Instant :=
  if 0 ≤ due.year ∧ due.year ≤ 9999 then due.floorMilli
  else Instant.atSecond due.seconds due.inRange

/-- The told time is in the second of the due time, and in its millisecond when the year has four
digits. -/
theorem told_near (due : Instant) : (told due).seconds = due.seconds ∧
    (told due).nanos ≤ due.nanos ∧
    (0 ≤ due.year ∧ due.year ≤ 9999 → due.nanos < (told due).nanos + nanosPerMilli) := by
  unfold told nanosPerMilli
  split
  · refine ⟨rfl, Nat.div_mul_le_self _ _, fun _ => ?_⟩
    show due.nanos < due.nanos / 1000000 * 1000000 + 1000000
    omega
  · next hyear => exact ⟨rfl, Nat.zero_le _, fun h => absurd h hyear⟩

theorem told_le (due : Instant) : told due ≤ due :=
  .inr ⟨(told_near due).1, (told_near due).2.1⟩

/-- The headers leave nothing out: the due time is in whole seconds, or in whole milliseconds of a
year with four digits. -/
def Tellable (due : Instant) : Prop :=
  due.nanos = 0 ∨ 0 ≤ due.year ∧ due.year ≤ 9999 ∧ due.nanos % nanosPerMilli = 0

instance (due : Instant) : Decidable (Tellable due) := inferInstanceAs (Decidable (_ ∨ _))

theorem told_eq_iff : told due = due ↔ Tellable due := by
  have heq : told due = due ↔ (told due).nanos = due.nanos :=
    ⟨fun h => congrArg Instant.nanos h, fun h => Instant.le_antisymm (told_le due)
      (.inr ⟨(told_near due).1.symm, Nat.le_of_eq h.symm⟩)⟩
  rw [heq]
  unfold told Tellable nanosPerMilli
  split
  · show due.nanos / 1000000 * 1000000 = due.nanos ↔ _
    omega
  · show 0 = due.nanos ↔ _
    omega

/-- **What a message tells** that carries a due time in both headers. -/
theorem dueTime?_of_headers (hfor : m.header? Header.scheduledFor = some due.renderMillis)
    (hat : m.header? Header.scheduledAt = some due.seconds.repr) :
    dueTime? m = some (told due) := by
  unfold dueTime? told
  rw [hfor, Option.bind_some]
  by_cases hyear : 0 ≤ due.year ∧ due.year ≤ 9999
  · rw [Instant.read?_renderMillis hyear.1 hyear.2, if_pos hyear]
  · have hrange := due.inRange
    unfold minSecond maxSecond at hrange
    have hread : integer? due.seconds.repr = some due.seconds :=
      integer?_repr (by omega) (by omega)
    rw [Instant.read?_renderMillis_eq_none hyear, if_neg hyear, hat]
    show (integer? due.seconds.repr).bind (fun s => Instant.of? s 0) = _
    rw [hread]
    exact Instant.of?_self (Instant.atSecond due.seconds due.inRange)

theorem dueTime?_delayedMessage (m : Message) (task : String) (now due : Instant) :
    dueTime? (Client.delayedMessage m task now due) = some (told due) := by
  have hset (name : String) : (Client.delayedMessage m task now due).header? name = _ :=
    Message.header?_setHeaders _ _ name
  exact dueTime?_of_headers (hset _) (hset _)

/-- A copy is due when the message is. -/
theorem dueTime?_promotedCopy : dueTime? (promotedCopy m now) = dueTime? m := by
  unfold dueTime?
  rw [header?_promotedCopy (by decide), header?_promotedCopy (by decide)]

end TaskQueue.Promotion
