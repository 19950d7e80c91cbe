import TaskQueue.Client.Enqueue
import TaskQueue.Engine.Lifecycle
import TaskQueue.Schedule.Job

/-!
# The table of jobs

Jobs are registered under identifiers. Every registration makes an instance of its own, and an
enqueue belongs to the instance that started it: it changes that instance even when the job has been
removed meanwhile, and it never changes another one registered later under the same identifier.

A request and a tick are each one step here. Out of scope here: requests that come while a tick is
on its way from one job to the next (`Proofs.Schedule.Interleaving` has them), and jobs that outlast
the process.
-/

namespace TaskQueue.Schedule

open Time Engine Text

/-- Why a scheduler refuses or ends. -/
inductive Failure where
  | duplicateJob (id : String)
  | jobNotFound (id : String)
  | emptyJobId
  | invalidConcurrency
  | invalidInterval
  | notStarted (e : StartError)
  | client (e : Client.ClientError)
  /-- The next run of a job is no instant. -/
  | overflow (e : Overflow)
  deriving DecidableEq

/-- The wording of a failure. -/
def Failure.message : Failure → String
  | duplicateJob id => "job already registered: " ++ id
  | jobNotFound id => "job not found: " ++ id
  | emptyJobId => "job id must not be empty"
  | invalidConcurrency => "max_concurrent must be at least 1"
  | invalidInterval => "tick interval must be greater than zero"
  | notStarted .alreadyRunning => "scheduler is already running"
  | notStarted .stopped => "scheduler has been stopped"
  | client e => "client error: " ++ e.message
  | overflow e => e.message

/-- Which registration an instance was made by. -/
abbrev Key := Nat

/-- All instances that were ever made, and which of them are registered. -/
structure Table where
  instances : Dict Key Job
  registered : Dict String Key
  nextKey : Key

namespace Table

/-- No job. -/
instance : EmptyCollection Table := ⟨⟨∅, ∅, 0⟩⟩

instance : Inhabited Table := ⟨∅⟩

/-! ## Looking -/

/-- The job registered under an identifier. -/
def job? (t : Table) (id : String) : Option Job := (t.registered.get? id).bind t.instances.get?

/-- The registered jobs in the order of their identifiers. -/
def jobs (t : Table) : List Job := t.registered.values.filterMap t.instances.get?

/-- How many jobs are registered. -/
def size (t : Table) : Nat := t.registered.size

/-! ## Managing -/

/-- Registers a job at `now`. -/
def add (t : Table) (id task : String) (schedule : Cron.Expression) (p : Payload) (now : Instant) :
    Except Failure Table := do
  if isAllBlank id then throw .emptyJobId
  let j ← (Job.make id task schedule p now).mapError .overflow
  if t.registered.contains id then throw (.duplicateJob id)
  return ⟨t.instances.insert t.nextKey j, t.registered.insert id t.nextKey, t.nextKey + 1⟩

/-- The instance that is registered under an identifier. -/
def key? (t : Table) (id : String) : Except Failure Key :=
  match t.registered.get? id with
  | some k => .ok k
  | none => .error (.jobNotFound id)

/-- Takes a job out of the table. -/
def remove (t : Table) (id : String) : Except Failure Table := do
  let _ ← t.key? id
  return { t with registered := t.registered.erase id }

/-- Changes one instance. -/
def change (t : Table) (k : Key) (f : Job → Job) : Table :=
  { t with instances := t.instances.modify k f }

/-- Enables or disables a job. -/
def setEnabled (t : Table) (id : String) (enabled : Bool) : Except Failure Table := do
  return t.change (← t.key? id) fun j => { j with enabled }

/-- Says how many enqueues of a job may be under way at once. -/
def setMaxConcurrent (t : Table) (id : String) (n : Nat) : Except Failure Table := do
  if n = 0 then throw .invalidConcurrency
  return t.change (← t.key? id) fun j => { j with maxConcurrent := n }

/-! ## Running -/

/-- The registered instances that fire at `now`, in the order of their identifiers. -/
def firing (t : Table) (now : Instant) : List Key :=
  t.registered.values.filter fun k => (t.instances.get? k).any fun j => j.fires now

/-- Starts an enqueue for every instance that fires. -/
def tick (t : Table) (now : Instant) : List Key × Table :=
  let ks := t.firing now
  (ks, ks.foldl (fun t k => t.change k .begin) t)

/-- An enqueue that an instance started at `start` has come to its end. -/
def complete (t : Table) (k : Key) (start : Instant) (succeeded : Bool) :
    Table × Except Overflow Unit :=
  match t.instances.get? k with
  | none => (t, .ok ())
  | some j =>
    if succeeded then
      (t.change k fun _ => (j.advance start).1, (j.advance start).2)
    else (t.change k fun _ => j.release, .ok ())

end Table

end TaskQueue.Schedule
