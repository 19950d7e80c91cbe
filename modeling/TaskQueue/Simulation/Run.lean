import TaskQueue.Simulation.Serve

/-!
# Running the world

Threads run one after the other, each until it has to wait, round after round until none of them
gets any further. Then virtual time jumps to the next deadline.
-/

namespace TaskQueue.Simulation

open Time Number Engine

/-- A bound on rounds, turns and jumps; no simulation comes near it. -/
def limit : Nat := 1000000000000

/-- Chance in a simulation: the middle of the range. -/
def middle : Retry.Draw Double := fun top => Arithmetic.mul Arithmetic.half top

/-- How far a script has got. -/
inductive Reached where
  | waits (w : World) (t : Thread) (moved : Bool)
  | ended (w : World) (t : Thread) (e : Ending)

/-- Runs a script until it has to wait or ends. -/
def advance : Program Double Ending → World → Thread → Bool → Reached
  | .done e, w, t, _ => .ended w t e
  | .ask r next, w, t, moved =>
    match serve r w t with
    | .answered a w t => advance (next a) w { t with wait := none } true
    | .waiting w t again => .waits w { t with script := .ask r next } (moved || again)
    | .overflowed e w => .ended w t (.brokeDown e)

namespace World

/-- A loop has ended, and cancels all that share its flag. One that broke down does not get to say
that it no longer runs. -/
def endLoop (w : World) (slot : String) (e : LoopEnd) : World :=
  match w.slots.get? slot with
  | none => w
  | some s =>
    let w := { w with slots := w.slots.insert slot { s with ended := some e } }.setFlag s.flag
    match e with
    | .brokeDown _ | .workerFailed (.overflow _) | .workerFailed (.backoff _) => w
    | _ => w.setLifecycle s.component (w.lifecycle s.component).finish

/-- An enqueue has come to its end. -/
def endEnqueue (w : World) (id : ThreadId) (key : Schedule.Key) (start : Instant)
    (succeeded : Bool) : World :=
  let (jobs, r) := w.jobs.complete key start succeeded
  { w with jobs, completed := w.completed.insert id r }

/-- What a thread does after its script has ended: the thread for the next turn of a loop, if there
is one. -/
def conclude (w : World) (id : ThreadId) (t : Thread) (e : Ending) : World × Option Thread :=
  match t.role, e with
  | .loop _, .worker (.goOn ()) =>
    (w, some { t with script := .worker <$> Worker.turn w.workerConfig middle t.token })
  | .loop slot, .worker (.ended r) =>
    (w.endLoop slot (match r with | .ok () => .finished | .error e => .workerFailed e), none)
  | .loop _, .promoter (.goOn held) =>
    (w, some { t with script := .promoter <$> Promotion.turn w.promoterConfig held })
  | .loop slot, .promoter (.ended r) =>
    (w.endLoop slot (match r with | .ok () => .finished | .error e => .promoterFailed e), none)
  | .loop _, .scheduler (.goOn ()) => (w, some { t with script := .scheduler <$> Schedule.turn })
  | .loop slot, .scheduler (.ended r) =>
    (w.endLoop slot (match r with | .ok () => .finished | .error e => .schedulerFailed e), none)
  | .loop slot, .brokeDown e => (w.endLoop slot (.brokeDown e), none)
  | .enqueue key start, .enqueued r => (w.endEnqueue id key start r.isOk, none)
  | .enqueue .., .brokeDown e => ({ w with completed := w.completed.insert id (.error e) }, none)
  | _, e => ({ w with endings := w.endings.insert id (e, w.elapsed) }, none)

/-- Runs a thread until it has to wait or ends; whether it got any further. -/
def runThread (id : ThreadId) : (fuel : Nat) → World → Thread → Bool → World × Bool
  | 0, w, _, moved => (w, moved)
  | fuel + 1, w, t, moved =>
    match advance t.script w t moved with
    | .waits w t moved => ({ w with threads := w.threads.insert id t }, moved)
    | .ended w t e =>
      match w.conclude id t e with
      | (w, some t) => runThread id fuel w t true
      | (w, none) => ({ w with threads := w.threads.erase id }, true)

/-- Runs a thread that is not held at the gate. -/
def runId (w : World) (id : ThreadId) : World × Bool :=
  match w.threads.get? id with
  | none => (w, false)
  | some t =>
    if w.gate.held.contains id then (w, false)
    else
      let wait := if t.wait matches some .gate then none else t.wait
      runThread id limit w { t with wait } false

/-- Runs every thread once; whether one of them got any further. -/
def round (w : World) : World × Bool :=
  w.threads.keys.foldl (fun (w, moved) id =>
    let (w, more) := w.runId id
    (w, moved || more)) (w, false)

/-- Runs rounds until no thread gets any further. -/
def settleFrom : (fuel : Nat) → World → World
  | 0, w => w
  | fuel + 1, w =>
    match w.round with
    | (w, true) => settleFrom fuel w
    | (w, false) => w

/-- Runs everything that can run without time passing. -/
def calm (w : World) : World := settleFrom limit w

/-- The next millisecond at which a thread goes on. -/
def nextDeadline? (w : World) : Option Nat :=
  let millis := w.threads.values.filterMap fun t =>
    t.deadline?.map fun d => (d + nanosPerMilli - 1) / nanosPerMilli
  (millis.filter fun m => w.elapsed < m).min?

/-- Lets time pass until a condition holds, or until nothing will ever happen again. -/
def passUntil (p : World → Bool) : (fuel : Nat) → World → World
  | 0, w => w
  | fuel + 1, w =>
    let w := w.calm
    if p w then w
    else
      match w.nextDeadline? with
      | none => w
      | some m => passUntil p fuel { w with elapsed := m }

/-- Lets time pass until the thread of a step has ended: what it ended with, and when. -/
def awaitThread (w : World) (id : ThreadId) : World × Option (Ending × Nat) :=
  let w := passUntil (fun w => (w.endings.get? id).isSome) limit w
  ({ w with endings := w.endings.erase id }, w.endings.get? id)

/-- Runs a step to its end. -/
def await (w : World) (t : Thread) : World × Option Ending :=
  let (id, w) := w.spawn t
  let (w, e) := w.awaitThread id
  (w, e.map Prod.fst)

/-- Lets time pass. -/
def sleep (w : World) (wait : Span) : World :=
  let script := do
    ask (.pause wait)
    return .elapsed
  (w.await (stepThread "" none .never script)).1

end World

end TaskQueue.Simulation
