import TaskQueue.Promotion.Loop
import TaskQueue.Worker.Process

/-!
# The copies of a message

A message that fails or becomes due goes on as a copy. A copy has the key and the payload of the
message, and it keeps every header that it does not set.

Results:

* `header?_setHeaders`: the headers after several were set;
* `correlationId_retryCopy`, `correlationId_deadLetterCopy`, `header?_promotedCopy`: a copy keeps
  the identifier of the task;
* `retryAttempt_retryCopy`, `retryCount_deadLetterCopy`: a copy tells how often the task has failed.
-/

namespace TaskQueue

open Time

namespace Message

variable {m : Message}

@[simp] theorem key_setHeaders (m : Message) (hs : List (String × String)) :
    (m.setHeaders hs).key = m.key := by
  unfold setHeaders
  induction hs generalizing m with
  | nil => rfl
  | cons h hs ih => exact ih (m.setHeader h.1 h.2)

@[simp] theorem payload_setHeaders (m : Message) (hs : List (String × String)) :
    (m.setHeaders hs).payload = m.payload := by
  unfold setHeaders
  induction hs generalizing m with
  | nil => rfl
  | cons h hs ih => exact ih (m.setHeader h.1 h.2)

/-- The last value that a header is set to stays. -/
theorem header?_setHeaders (m : Message) (hs : List (String × String)) (name : String) :
    (m.setHeaders hs).header? name =
      hs.foldl (fun v h => if name = h.1 then some h.2 else v) (m.header? name) := by
  unfold setHeaders
  induction hs generalizing m with
  | nil => rfl
  | cons h hs ih =>
    rw [List.foldl_cons, ih, header?_setHeader]
    rfl

end Message

/-! ## Retries and dead letters -/

namespace Worker

variable {m : Message} {d : Delivery} {t : Trail} {backoff : Span} {due now : Instant}

@[simp] theorem key_retryCopy : (retryCopy m t backoff due).key = m.key :=
  Message.key_setHeaders _ _

@[simp] theorem payload_retryCopy : (retryCopy m t backoff due).payload = m.payload :=
  Message.payload_setHeaders _ _

theorem correlationId_retryCopy :
    (retryCopy m t backoff due).header? Header.correlationId = some t.correlationId := by
  unfold retryCopy
  rw [Message.header?_setHeaders]
  rfl

theorem retryAttempt_retryCopy :
    (retryCopy m t backoff due).header? Header.retryAttempt = some t.failures.toNat.repr := by
  unfold retryCopy
  rw [Message.header?_setHeaders]
  rfl

theorem correlationId_deadLetterCopy :
    (deadLetterCopy d t now).header? Header.correlationId = some t.correlationId := by
  unfold deadLetterCopy
  rw [Message.header?_setHeaders]
  rfl

theorem retryCount_deadLetterCopy :
    (deadLetterCopy d t now).header? Header.retryCount = some t.failures.toNat.repr := by
  unfold deadLetterCopy
  rw [Message.header?_setHeaders]
  rfl

end Worker

/-! ## Promotion -/

namespace Promotion

variable {m : Message} {now : Instant}

@[simp] theorem key_promotedCopy : (promotedCopy m now).key = m.key := rfl

@[simp] theorem payload_promotedCopy : (promotedCopy m now).payload = m.payload := rfl

theorem header?_promotedCopy {name : String} (h : name ≠ Header.promotedAt) :
    (promotedCopy m now).header? name = m.header? name := by
  unfold promotedCopy
  rw [Message.header?_setHeader, if_neg h]

end Promotion

end TaskQueue
