import TaskQueue.Broker.Basic
import TaskQueue.Promotion.Loop
import TaskQueue.Schedule.Loop
import TaskQueue.Simulation.Behaviour
import TaskQueue.Simulation.Handle
import TaskQueue.Task.Identifier
import TaskQueue.Worker.Loop

/-!
# The simulated world

Everything that a queue consists of at one moment: a broker and the handles onto it, the state of a
worker, a promoter and a scheduler, virtual time, and the threads that are under way. A thread is a
script that has got as far as a request for which it has to wait.

Virtual time is whole milliseconds. It starts at zero and moves only when every thread waits. The
clock that engines see is set to a start, is moved by jumps, and adds virtual time to where it is
set. It cannot show what lies beyond the last instant: a thread that asks for the time then breaks
down, as does one that waits for a delivery for so long that the end of the wait cannot be told.

Out of scope: threads that run at the same time. Whatever is shared is changed by one request at a
time.
-/

namespace TaskQueue.Simulation

open Time Number Engine Broker

/-! ## Threads -/

/-- A member of a group, made from a handle. -/
structure Consumer where
  handle : String
  topic : String
  group : String

/-- What a script of a thread ends with. -/
inductive Ending where
  | worker (t : Turn Unit Worker.Failure)
  | promoter (t : Turn Promotion.Held Promotion.Failure)
  | scheduler (t : Turn Unit Schedule.Failure)
  | enqueued (r : Except Client.ClientError String)
  | resolved (r : Worker.Resolution)
  | received (r : Received)
  | elapsed
  /-- A time could not be told. -/
  | brokeDown (e : Overflow)

/-- What a thread is for. -/
inductive Role where
  /-- The loop of a worker, a promoter or a scheduler, in a slot. -/
  | loop (slot : String)
  /-- An enqueue that an instance of a job started. -/
  | enqueue (key : Schedule.Key) (start : Instant)
  /-- A step of the simulation. -/
  | step

/-- What a thread waits for. -/
inductive Wait where
  | delivery (deadline : Nanos)
  | handler (r : HandlerRun)
  | time (deadline : Nanos)
  | gate

/-- A script under way. -/
structure Thread where
  role : Role
  /-- The handle that it publishes and subscribes with. -/
  handle : String
  consumer : Option Consumer
  /-- Cancelled when the thread is to stop. -/
  token : CancelToken
  /-- When the next tick is due. -/
  nextTick : Nanos
  wait : Option Wait
  script : Program Double Ending

/-- When a thread goes on at the latest. -/
def Thread.deadline? (t : Thread) : Option Nanos :=
  match t.wait with
  | some (.delivery deadline) | some (.time deadline) => some deadline
  | some (.handler r) => r.wakesAt
  | some .gate | none => none

/-! ## Components -/

/-- A part of a queue that runs in a loop. -/
inductive Component where
  | worker
  | promoter
  | scheduler
  deriving DecidableEq, Repr

namespace Component

/-- The name of a component, which is also the name of its handle. -/
def name : Component → String
  | worker => "server"
  | promoter => "promoter"
  | scheduler => "scheduler"

/-- The component of a name. -/
def ofName? (s : String) : Option Component :=
  [worker, promoter, scheduler].find? fun c => c.name = s

/-- The flag that is set when a component is stopped. -/
def stopFlag : Component → Flag
  | worker => 0
  | promoter => 1
  | scheduler => 2

end Component

/-- The first flag that no component has for itself. -/
def firstFreeFlag : Flag := 3

/-- How a loop ended. -/
inductive LoopEnd where
  | finished
  | workerFailed (e : Worker.Failure)
  | promoterFailed (e : Promotion.Failure)
  | schedulerFailed (e : Schedule.Failure)
  /-- A time could not be told. -/
  | brokeDown (e : Overflow)

/-- A start of a component: the flag that cancels it, and how it ended, if it did. -/
structure Slot where
  component : Component
  flag : Flag
  ended : Option LoopEnd

/-- A registered handler: what it does on each call, the last of it again and again. -/
structure Handler where
  calls : Nat
  behaviours : List Behaviour
  /-- Its calls are noted in the world. -/
  isNoted : Bool

/-- A call of a handler. -/
structure Call where
  context : Context
  payload : Payload
  cancelled : Bool
  instant : Instant

/-- A gate that enqueues of jobs pass, and the threads that it holds in the order in which they
came. -/
structure Gate where
  isOpen : Bool
  held : List Nat

/-! ## The world -/

/-- A thread by its number. -/
abbrev ThreadId := Nat

/-- Everything at one moment. -/
structure World where
  queue : Topics
  broker : Broker.State
  handles : Dict String Handle
  /-- What the clock is set to. -/
  clock : Instant
  /-- The clock moves with virtual time. -/
  clockRuns : Bool
  /-- Virtual time in milliseconds. -/
  elapsed : Nat
  identifiers : Nat
  flags : List Flag
  nextFlag : Flag
  workerConfig : Worker.Config
  policy : Retry.Policy Double
  handlers : Dict String Handler
  store : Dict String Trail
  counters : Worker.Counters
  calls : List Call
  promoterConfig : Promotion.Config
  schedulerConfig : Schedule.Config
  jobs : Schedule.Table
  gate : Gate
  lifecycles : List (Component × Lifecycle)
  slots : Dict String Slot
  threads : Dict ThreadId Thread
  nextThread : ThreadId
  /-- What steps have ended with, and at which millisecond. -/
  endings : Dict ThreadId (Ending × Nat)
  /-- Enqueues of ticks that nobody has waited for. -/
  ticked : List ThreadId
  /-- Enqueues that have come to their end. -/
  completed : Dict ThreadId (Except Overflow Unit)
  consumers : Dict String Consumer
  deliveries : Dict String Delivery

namespace World

/-- A world at its start. -/
def initial (queue : Topics) (start : Instant) (worker : Worker.Config)
    (promoter : Promotion.Config) (scheduler : Schedule.Config) : World where
  queue
  broker := ∅
  handles := ∅
  clock := start
  clockRuns := true
  elapsed := 0
  identifiers := 0
  flags := []
  nextFlag := firstFreeFlag
  workerConfig := worker
  policy := worker.policy
  handlers := ∅
  store := ∅
  counters := .zero
  calls := []
  promoterConfig := promoter
  schedulerConfig := scheduler
  jobs := ∅
  gate := ⟨true, []⟩
  lifecycles := [.worker, .promoter, .scheduler].map fun c => (c, .fresh)
  slots := ∅
  threads := ∅
  nextThread := 0
  endings := ∅
  ticked := []
  completed := ∅
  consumers := ∅
  deliveries := ∅

/-- Virtual time in nanoseconds. -/
def nanos (w : World) : Nanos := w.elapsed * nanosPerMilli

/-- Time is counted from when the machine was switched on, in less than 2⁶³ seconds. When virtual
time starts, it has been on for a day. -/
def horizon : Nanos := (9223372036854775808 - 86400) * nanosPerSecond

/-- When a wait ends that begins at `start`, unless that is later than time is counted. -/
def deadlineFrom? (start wait : Nanos) : Option Nanos :=
  if start + wait < horizon then some (start + wait) else none

/-- The longest pause, and the time to a tick whose deadline cannot be told: thirty years of 365
days. -/
def farAway : Nanos := 30 * 365 * 86400 * nanosPerSecond

/-- When a pause ends that begins now. -/
def pauseEnd (w : World) (wait : Nanos) : Nanos := w.nanos + min wait farAway

/-- When the tick is due that follows one that was due at `last`. -/
def tickAfter (w : World) (last : Nanos) : Nanos :=
  (deadlineFrom? last w.schedulerConfig.tickInterval.nanos).getD (w.nanos + farAway)

/-- What the clock shows. -/
def now (w : World) : Except Overflow Instant :=
  w.clock.move (if w.clockRuns then w.nanos else 0)

/-- A handle; one that is used for the first time is open. -/
def handle (w : World) (name : String) : Handle := (w.handles.get? name).getD default

/-- Whether a component runs and whether it was stopped. -/
def lifecycle (w : World) (c : Component) : Lifecycle := (w.lifecycles.lookup c).getD .fresh

/-- Changes whether a component runs. -/
def setLifecycle (w : World) (c : Component) (l : Lifecycle) : World :=
  { w with lifecycles := w.lifecycles.map fun e => if e.1 = c then (c, l) else e }

/-- Sets a flag. -/
def setFlag (w : World) (f : Flag) : World := { w with flags := f :: w.flags }

/-- A token is cancelled. -/
def isCancelled (w : World) (t : CancelToken) : Bool := t.isCancelled w.flags

/-- Starts a thread. -/
def spawn (w : World) (t : Thread) : ThreadId × World :=
  (w.nextThread,
    { w with threads := w.threads.insert w.nextThread t, nextThread := w.nextThread + 1 })

/-- A thread for a step. -/
def stepThread (handle : String) (consumer : Option Consumer) (token : CancelToken)
    (script : Program Double Ending) : Thread :=
  ⟨.step, handle, consumer, token, 0, none, script⟩

/-- Starts an enqueue for every job that is due. Behind a closed gate the enqueues wait. -/
def fire (w : World) (now : Instant) : List ThreadId × World :=
  let (keys, jobs) := w.jobs.tick now
  keys.foldl (fun (ids, w) key =>
    match w.jobs.instances.get? key with
    | none => (ids, w)
    | some j =>
      let wait := if w.gate.isOpen then none else some Wait.gate
      let script := Ending.enqueued <$> Client.enqueue w.queue j.task j.payload
      let (id, w) := w.spawn
        ⟨.enqueue key now, Component.scheduler.name, none, .never, 0, wait, script⟩
      let held := if w.gate.isOpen then w.gate.held else w.gate.held ++ [id]
      (ids ++ [id], { w with gate := { w.gate with held } }))
    ([], { w with jobs })

end World

end TaskQueue.Simulation
