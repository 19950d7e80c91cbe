import TaskQueue.Message.Basic
import TaskQueue.Message.Header

/-!
# Due times

A waiting message says in its headers when it is due: as a timestamp, or else in seconds since 1970.
-/

namespace TaskQueue.Promotion

open Time Text

/-- When a waiting message is due; none when it does not say so. -/
def dueTime? (m : Message) : Option Instant :=
  match (m.header? Header.scheduledFor).bind Instant.read? with
  | some t => some t
  | none => do
    let seconds ← integer? (← m.header? Header.scheduledAt)
    Instant.of? seconds 0

end TaskQueue.Promotion
