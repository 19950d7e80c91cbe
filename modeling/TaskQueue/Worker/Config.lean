import TaskQueue.Queue.Topics
import TaskQueue.Retry.Policy

/-!
# Configuration of a worker
-/

namespace TaskQueue.Worker

open Json Time Number Retry

/-- What becomes of a message whose task nobody handles. -/
inductive UnknownTask where
  /-- It is acknowledged and dropped. -/
  | skip
  /-- After a delay it is handed back to the group. -/
  | requeue
  deriving DecidableEq, Repr

namespace UnknownTask

/-- The name of a choice. -/
def name : UnknownTask → String
  | skip => "skip"
  | requeue => "requeue"

/-- The choice of a name. -/
def ofName? (s : String) : Option UnknownTask := [skip, requeue].find? fun u => u.name = s

end UnknownTask

instance : Codec UnknownTask where
  encode u := .text u.name
  decode v := v.choice?.bind UnknownTask.ofName?

/-- What a worker consumes and how it treats what it cannot run. -/
structure Config where
  topics : Topics
  /-- The consumer group that all workers of a queue share. -/
  group : String
  /-- No wait for a message is longer. -/
  pollTimeout : Span
  unknownTask : UnknownTask
  requeueDelay : Span
  /-- The retry policy to begin with. -/
  policy : Policy Double

namespace Config

/-- The group of workers that are given none. -/
def standardGroup : String := "taskforge-workers"

/-- Waits of a second, unknown tasks skipped, and the standard policy. -/
def ofTopics (topics : Topics) : Config :=
  ⟨topics, standardGroup, .ofSeconds 1, .skip, .ofSeconds 1, .standard⟩

instance : Inhabited Config := ⟨.ofTopics default⟩

end Config

instance : Codec Config where
  encode c :=
    .object [("topics", encode c.topics), ("group", encode c.group),
      ("poll_timeout", encode c.pollTimeout), ("unknown_task", encode c.unknownTask),
      ("requeue_delay", encode c.requeueDelay), ("retry_policy", encode c.policy)]
  decode v := do
    let [topics, group, pollTimeout, unknownTask, requeueDelay, policy] ←
      v.fields? ["topics", "group", "poll_timeout", "unknown_task", "requeue_delay",
        "retry_policy"] 6 | none
    return ⟨← required topics, ← required group, ← required pollTimeout, ← required unknownTask,
      ← required requeueDelay, ← required policy⟩

end TaskQueue.Worker
