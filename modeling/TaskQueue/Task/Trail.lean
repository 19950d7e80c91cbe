import TaskQueue.Message.Basic

/-!
# The trail of a message

What is written down about the processing of one delivery: what it has been through and when, and
how it failed. A dead letter carries its trail in a header.
-/

namespace TaskQueue

open Json Time

/-- A stage of processing. -/
inductive Stage where
  | received
  | parsed
  | dispatched
  | failed
  | retried
  | deadLettered
  deriving DecidableEq, Repr

namespace Stage

/-- All stages. -/
def all : List Stage := [received, parsed, dispatched, failed, retried, deadLettered]

/-- The name of a stage. -/
def name : Stage → String
  | received => "received"
  | parsed => "parsed"
  | dispatched => "dispatched"
  | failed => "failed"
  | retried => "retried"
  | deadLettered => "dead_lettered"

/-- The stage of a name. -/
def ofName? (s : String) : Option Stage := all.find? fun stage => stage.name = s

end Stage

instance : Codec Stage where
  encode s := .text s.name
  decode v := v.choice?.bind Stage.ofName?

/-- A stage and when it was reached. -/
structure Mark where
  stage : Stage
  instant : Instant
  deriving DecidableEq

instance : Codec Mark where
  encode m := .object [("step", encode m.stage), ("at", encode m.instant)]
  decode v := do
    let [stage, instant] ← v.fields? ["step", "at"] 2 | none
    return ⟨← required stage, ← required instant⟩

/-- What is known about the processing of a delivery. -/
structure Trail where
  /-- How often the task has failed. -/
  failures : UInt32
  topic : String
  partition : UInt32
  offset : String
  firstSeen : Instant
  lastError : Option String
  correlationId : String
  marks : List Mark
  deriving DecidableEq

namespace Trail

/-- A trail without marks. -/
def start (position : Position) (correlationId : String) (firstSeen : Instant) : Trail :=
  ⟨0, position.topic, position.partition, position.offset, firstSeen, none, correlationId, []⟩

/-- Adds a mark. -/
def record (t : Trail) (stage : Stage) (now : Instant) : Trail :=
  { t with marks := t.marks ++ [⟨stage, now⟩] }

/-- Records a failure and counts it, up to the largest count. -/
def recordFailure (t : Trail) (error : String) (now : Instant) : Trail :=
  { t with
    failures := if t.failures = UInt32.ofNat Text.maxNat32 then t.failures else t.failures + 1
    lastError := some error }.record .failed now

end Trail

/-- In an object the last error may be missing. -/
instance : Codec Trail where
  encode t :=
    .object [("retry_count", encode t.failures), ("original_topic", encode t.topic),
      ("original_partition", encode t.partition), ("original_offset", encode t.offset),
      ("first_seen", encode t.firstSeen), ("last_error", encode t.lastError),
      ("correlation_id", encode t.correlationId), ("steps", encode t.marks)]
  decode v := do
    let [failures, topic, partition, offset, firstSeen, lastError, correlationId, marks] ←
      v.fields? ["retry_count", "original_topic", "original_partition", "original_offset",
        "first_seen", "last_error", "correlation_id", "steps"] 8 | none
    return ⟨← required failures, ← required topic, ← required partition, ← required offset,
      ← required firstSeen, ← withDefault none lastError, ← required correlationId,
      ← required marks⟩

namespace Trail

/-- The text of a trail in a header. -/
def render (t : Trail) : String := Codec.print t

end Trail

end TaskQueue
