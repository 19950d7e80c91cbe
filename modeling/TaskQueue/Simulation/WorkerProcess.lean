import TaskQueue.Simulation.Control
import TaskQueue.Worker.Builtin
import TaskQueue.Worker.Settings

/-!
# A worker process over a broker in memory

A worker process runs a worker, a promoter and a scheduler side by side, each with a handle of its
own. They share one flag: whichever ends first takes the others with it. After all have ended they
are stopped for good. The result is the first error in the order worker, promoter, scheduler.

Nothing that is seen of such a run depends on the time of day, so its clock stands still.

Out of scope: how the process is told to end by its surroundings, and the log that it sets up.
-/

namespace TaskQueue.Simulation

open Time Engine

namespace WorkerProcess

/-- The retry policy of a worker process: invalid input is not tried again. -/
def policy (s : Worker.Settings) : Retry.Policy Number.Double :=
  { Retry.Policy.standard with
    maxRetries := s.maxRetries
    forbidden := Retry.Policy.standard.forbidden ++ ["invalid input"] }

/-- The configuration of the worker. -/
def workerConfig (s : Worker.Settings) : Worker.Config :=
  { Worker.Config.ofTopics (.ofQueue s.queue) with group := s.group, policy := policy s }

/-- The configuration of the promoter. -/
def promoterConfig (s : Worker.Settings) : Promotion.Config :=
  { Promotion.Config.ofTopics (.ofQueue s.queue) with pollInterval := s.promoterInterval }

/-- The identifier of the job that shows that the process is alive. -/
def heartbeatJob : String := "heartbeat"

/-- Registers the job that shows that the process is alive. -/
def addHeartbeat (w : World) : World :=
  let p : Payload := (∅ : Payload).insert "source" (.text "scheduler")
  match w.jobs.add heartbeatJob Worker.Builtin.heartbeatTask .everyMinute p w.clock with
  | .ok jobs => { w with jobs }
  | .error _ => w

/-- The time at which the clock stands. -/
def standingTime : Instant := (Instant.of? 1772452800 0).getD .epoch

/-- The world before the process starts. -/
def prepare (s : Worker.Settings) (messages : List (Option String × Message))
    (faults : List (String × Fault)) : World :=
  let w := World.initial (.ofQueue s.queue) standingTime (workerConfig s) (promoterConfig s)
    ⟨s.schedulerInterval⟩
  let broker := messages.foldl (fun b (topic, m) => b.publish (topic.getD s.queue) m) w.broker
  let handles := faults.foldl
    (fun (hs : Dict String Handle) (via, f) =>
      hs.update via default fun h => { h with faults := h.faults ++ [f] })
    w.handles
  let handlers := Worker.Builtin.all.foldl
    (fun hs (task, f) => hs.insert task ⟨0, [.finish f], false⟩) w.handlers
  addHeartbeat { w with clockRuns := false, broker, handles, handlers }

/-- The components in the order in which they start. -/
def components : List Component := [.worker, .promoter, .scheduler]

/-- All components have ended. -/
def allEnded (w : World) : Bool := w.slots.values.all fun s => s.ended.isSome

/-- The wording of the error that a component ended with. -/
def errorOf (w : World) (c : Component) : Option String :=
  match (w.slots.get? c.name).bind Slot.ended with
  | some (.workerFailed e) => some e.message
  | some (.promoterFailed e) => some e.message
  | some (.schedulerFailed e) => some e.message
  | some (.brokeDown e) => some e.message
  | some .finished | none => none

/-- What is seen of a run. -/
structure Report where
  error : Option String
  /-- The process ended before it was told to. -/
  endedEarly : Bool
  broker : Broker.State
  topics : Topics
  /-- The groups on the active and on the delayed topic. -/
  workerGroup : String
  promoterGroup : String

/-- Runs the process for a time and then tells it to end. -/
def run (s : Worker.Settings) (messages : List (Option String × Message))
    (faults : List (String × Fault)) (time : Span) : Report :=
  let w := prepare s messages faults
  let flag := w.nextFlag
  let w := components.foldl (fun w c => w.startWith c flag) { w with nextFlag := flag + 1 }
  let w := w.sleep time
  let endedEarly := allEnded w
  let w := World.passUntil allEnded limit (w.setFlag flag)
  let w := components.foldl (fun w c => (w.stopComponent c).2) w
  ⟨components.findSome? (errorOf w), endedEarly, w.broker, w.queue, w.workerConfig.group,
    w.promoterConfig.group⟩

end WorkerProcess

end TaskQueue.Simulation
