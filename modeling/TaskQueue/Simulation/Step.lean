import TaskQueue.Simulation.Control
import TaskQueue.Worker.Builtin

/-!
# Steps of a simulation

What can be done to the simulated world from outside, and what is seen of it. After each step
everything has run that can run without time passing.
-/

namespace TaskQueue.Simulation

open Time Number Engine Broker

/-! ## Steps -/

/-- A delivery that a step is about. -/
inductive DeliveryRef where
  /-- One that was received and kept under a name. -/
  | kept (name : String)
  | given (d : Delivery)

/-- A step from outside. -/
inductive Step where
  | wait (span : Span)
  | jump (millis : Int)
  | now
  | publish (via topic : String) (m : Message)
  | subscribe (via topic group name : String)
  | close (via : String)
  | closeClient
  | receive (consumer : String) (block : Span) (name : String)
  /-- To receive, and to do something else after a while. -/
  | receiveDuring (consumer : String) (block : Span) (name : String) (after : Span) (other : Step)
  | ack (consumer : String) (d : DeliveryRef)
  | reject (consumer : String) (d : DeliveryRef) (requeue : Bool)
  | messages (topic : String) (sorted : Bool)
  | pending (topic group : String)
  | backlog (topic group : String)
  | fail (via : String) (f : Fault)
  | enqueue (task : String) (p : Except PayloadError Payload) (delay : Option Span)
  | register (task : String) (behaviours : List Behaviour)
  | registerBuiltin
  | process (consumer : String) (d : DeliveryRef) (cancelled : Bool)
  | setPolicy (p : Retry.Policy Double)
  | policy
  | config
  | stats
  | calls
  | start (c : Component)
  | status (slot : String)
  | cancel (slot : String)
  | stop (c : Component)
  | addJob (id task : String) (schedule : Except Cron.ParseError Cron.Expression)
      (p : Except PayloadError Payload)
  | removeJob (id : String)
  | setEnabled (id : String) (enabled : Bool)
  | setMaxConcurrent (id : String) (n : Nat)
  | job (id : String)
  | jobs
  | tick (instant : Option Instant)
  | joinTicks
  | openGate (isOpen : Bool)
  | releaseGate (n : Nat)

/-! ## Reports -/

/-- An error of any part. -/
inductive Failure where
  | cron (e : Cron.ParseError)
  | payload (e : PayloadError)
  | transport (e : TransportError)
  | client (e : Client.ClientError)
  | worker (e : Worker.Failure)
  | promoter (e : Promotion.Failure)
  | scheduler (e : Schedule.Failure)
  /-- A time cannot be told. -/
  | clock (e : Overflow)
  /-- Nothing is known under a name. -/
  | unknown (name : String)

/-- What is seen of a loop. -/
inductive LoopStatus where
  | neverStarted
  | running
  | ended (e : LoopEnd)

/-- What is seen of a worker. -/
structure Stats where
  counters : Worker.Counters
  storeIsEmpty : Bool
  pending : Nat
  backlog : Nat

/-- What a step comes to. -/
inductive Report where
  | done
  | failed (e : Failure)
  | time (t : Instant)
  | number (n : Nat)
  | identifier (s : String)
  | delivery (d : Option Delivery)
  | during (other got : Report) (took : Nat)
  | messages (ms : List Message)
  | outcome (o : Worker.Outcome)
  | policy (p : Retry.Policy Double)
  | config (worker : Worker.Config) (client : Topics)
  | stats (s : Stats)
  | calls (cs : List Call)
  | status (running : Option Bool) (loop : LoopStatus)
  | job (j : Option Schedule.Job)
  | jobs (js : List Schedule.Job)
  | fired (n waiting : Nat)
  | joined (rs : List (Except Overflow Unit))
  | waiting (n : Nat)

/-- A plain success or an error. -/
def Report.ofExcept {ε : Type} (f : ε → Failure) : Except ε Unit → Report
  | .ok () => .done
  | .error e => .failed (f e)

/-! ## Performing -/

namespace World

/-- The delivery that a step is about. -/
def delivery? (w : World) : DeliveryRef → Option Delivery
  | .kept name => w.deliveries.get? name
  | .given d => some d

/-- Does something to a delivery on behalf of a consumer. -/
def withDelivery (w : World) (consumer : String) (d : DeliveryRef)
    (f : World → Consumer → Delivery → World × Report) : World × Report :=
  match w.consumers.get? consumer, w.delivery? d with
  | some c, some d => f w c d
  | none, _ => (w, .failed (.unknown consumer))
  | some _, none => (w, .failed (.unknown "delivery"))

/-- Keeps a delivery and reports it. -/
def keep (w : World) (name : String) : Option Ending → World × Report
  | some (.received (.delivery d)) =>
    ({ w with deliveries := w.deliveries.insert name d }, .delivery (some d))
  | some (.received (.failed e)) => (w, .failed (.transport e))
  | some (.brokeDown e) => (w, .failed (.clock e))
  | _ => (w, .delivery none)

/-- The thread that receives for a consumer. -/
def receiver (c : Consumer) (block : Span) : Thread :=
  stepThread c.handle (some c) .never (.received <$> ask (.receive block))

/-- The handle of the client. -/
def clientHandle : String := "client"

/-- Runs a script of a client. -/
def runClient (w : World)
    (script : Program Double (Except Client.ClientError String)) : World × Report :=
  match w.await (stepThread clientHandle none .never (.enqueued <$> script)) with
  | (w, some (.enqueued (.ok id))) => (w, .identifier id)
  | (w, some (.enqueued (.error e))) => (w, .failed (.client e))
  | (w, some (.brokeDown e)) => (w, .failed (.clock e))
  | (w, _) => (w, .done)

/-- Lets the worker resolve a delivery. -/
def resolve (w : World) (c : Consumer) (d : Delivery) (cancelled : Bool) : World × Report :=
  let flag := w.nextFlag
  let w := { w with nextFlag := flag + 1 }
  let w := if cancelled then w.setFlag flag else w
  let token := CancelToken.ofFlag flag
  let script := Ending.resolved <$> Worker.process w.workerConfig middle token d
  match w.await (stepThread Component.worker.name (some c) token script) with
  | (w, some (.resolved (.ok o))) => (w, .outcome o)
  | (w, some (.resolved (.error e))) => (w, .failed (.worker e))
  | (w, some (.brokeDown e)) => (w, .failed (.clock e))
  | (w, _) => (w, .done)

/-- What is seen of the slot of a loop. -/
def statusOf (w : World) (slot : String) : Report :=
  let name := String.ofList (slot.toList.reverse.dropWhile Char.isDigit).reverse
  let running := match Component.ofName? name with
    | some .scheduler | none => none
    | some c => some (w.lifecycle c).running
  let loop := match w.slots.get? slot with
    | none => .neverStarted
    | some s => (s.ended.map LoopStatus.ended).getD .running
  .status running loop

/-- Changes the table of jobs. -/
def changeJobs (w : World) : Except Schedule.Failure Schedule.Table → World × Report
  | .ok jobs => ({ w with jobs }, .done)
  | .error e => (w, .failed (.scheduler e))

/-- The error of a component whose handle cannot be closed. -/
def closingFailure : Component → TransportError → Failure
  | .worker, e => .worker (.transport e)
  | .promoter, e => .promoter (.transport e)
  | .scheduler, e => .scheduler (.client (.transport e))

/-- Messages are sorted by their keys, then by their payloads. -/
def messageOrder (m n : Message) : Bool :=
  m.key < n.key || (m.key == n.key && decide (m.payload ≤ n.payload))

/-- Performs a step. -/
def perform : Step → World → World × Report
  | .wait span, w => (w.sleep span, .done)
  | .jump millis, w =>
    match w.clock.moveMillis millis with
    | .ok clock => ({ w with clock }, .done)
    | .error e => (w, .failed (.clock e))
  | .now, w =>
    match w.now with
    | .ok now => (w, .time now)
    | .error e => (w, .failed (.clock e))
  | .publish via topic m, w =>
    let (r, w) := w.publish via topic m
    (w, .ofExcept .transport r)
  | .subscribe via topic group name, w =>
    match w.subscribe via topic group with
    | (.ok c, w) => ({ w with consumers := w.consumers.insert name c }, .done)
    | (.error e, w) => (w, .failed (.transport e))
  | .close via, w =>
    let (r, w) := w.closeHandle via
    (w, .ofExcept .transport r)
  | .closeClient, w =>
    let (r, w) := w.closeHandle clientHandle
    (w, .ofExcept (fun e => .client (.transport e)) r)
  | .receive consumer block name, w =>
    match w.consumers.get? consumer with
    | none => (w, .failed (.unknown consumer))
    | some c =>
      let (w, e) := w.await (receiver c block)
      w.keep name e
  | .receiveDuring consumer block name after other, w =>
    match w.consumers.get? consumer with
    | none => (w, .failed (.unknown consumer))
    | some c =>
      let began := w.elapsed
      let (id, w) := w.spawn (receiver c block)
      let (w, report) := perform other (w.calm.sleep after)
      let (w, e) := w.awaitThread id
      let (w, got) := w.keep name (e.map Prod.fst)
      (w, .during report got ((e.map Prod.snd).getD w.elapsed - began))
  | .ack consumer d, w =>
    w.withDelivery consumer d fun w c d =>
      let (r, w) := w.ack c d
      (w, .ofExcept .transport r)
  | .reject consumer d requeue, w =>
    w.withDelivery consumer d fun w c d =>
      let (r, w) := w.reject c d requeue
      (w, .ofExcept .transport r)
  | .messages topic sorted, w =>
    let ms := w.broker.messages topic
    (w, .messages (if sorted then ms.mergeSort messageOrder else ms))
  | .pending topic group, w => (w, .number (w.broker.pending topic group))
  | .backlog topic group, w => (w, .number (w.broker.backlog topic group))
  | .fail via f, w =>
    let h := w.handle via
    ({ w with handles := w.handles.insert via { h with faults := h.faults ++ [f] } }, .done)
  | .enqueue task p delay, w =>
    match p, delay with
    | .error e, _ => (w, .failed (.payload e))
    | .ok p, none => w.runClient (Client.enqueue w.queue task p)
    | .ok p, some delay => w.runClient (Client.enqueueDelayed w.queue task p delay)
  | .register task behaviours, w =>
    ({ w with handlers := w.handlers.insert task ⟨0, behaviours, true⟩ }, .done)
  | .registerBuiltin, w =>
    let handlers := Worker.Builtin.all.foldl
      (fun hs (task, f) => hs.insert task ⟨0, [.finish f], false⟩) w.handlers
    ({ w with handlers }, .done)
  | .process consumer d cancelled, w =>
    w.withDelivery consumer d fun w c d => w.resolve c d cancelled
  | .setPolicy policy, w => ({ w with policy }, .done)
  | .policy, w => (w, .policy w.policy)
  | .config, w => (w, .config w.workerConfig w.queue)
  | .stats, w =>
    let topic := w.workerConfig.topics.active
    let group := w.workerConfig.group
    (w, .stats ⟨w.counters, w.store.size == 0, w.broker.pending topic group,
      w.broker.backlog topic group⟩)
  | .calls, w => ({ w with calls := [] }, .calls w.calls)
  | .start c, w => (w.startComponent c, .done)
  | .status slot, w => (w, w.statusOf slot)
  | .cancel slot, w =>
    let w := match w.slots.get? slot with
      | some s => (w.setFlag s.flag).calm
      | none => w
    (w, w.statusOf slot)
  | .stop c, w =>
    let (r, w) := w.stopComponent c
    (w, .ofExcept (closingFailure c) r)
  | .addJob id task schedule p, w =>
    match schedule, p with
    | .error e, _ => (w, .failed (.cron e))
    | _, .error e => (w, .failed (.payload e))
    | .ok schedule, .ok p =>
      match w.now with
      | .ok now => w.changeJobs (w.jobs.add id task schedule p now)
      | .error e =>
        (w, .failed (if Text.isAllBlank id then .scheduler .emptyJobId else .clock e))
  | .removeJob id, w => w.changeJobs (w.jobs.remove id)
  | .setEnabled id enabled, w => w.changeJobs (w.jobs.setEnabled id enabled)
  | .setMaxConcurrent id n, w => w.changeJobs (w.jobs.setMaxConcurrent id n)
  | .job id, w => (w, .job (w.jobs.job? id))
  | .jobs, w => (w, .jobs w.jobs.jobs)
  | .tick instant, w =>
    match instant.elim w.now .ok with
    | .error e => (w, .failed (.clock e))
    | .ok now =>
      let (ids, w) := w.fire now
      let w := { w with ticked := w.ticked ++ ids }.calm
      (w, .fired ids.length w.gate.held.length)
  | .joinTicks, w =>
    let w := passUntil (fun w => w.ticked.all w.completed.contains) limit w
    ({ w with ticked := [] }, .joined (w.ticked.filterMap w.completed.get?))
  | .openGate isOpen, w =>
    let w := { w with gate := ⟨isOpen, if isOpen then [] else w.gate.held⟩ }.calm
    (w, .waiting w.gate.held.length)
  | .releaseGate n, w =>
    let w := { w with gate := { w.gate with held := w.gate.held.drop n } }.calm
    (w, .waiting w.gate.held.length)

/-! ## Whole simulations -/

/-- What is seen after a step: what it came to, virtual time in milliseconds, and how many messages
were ever published on the active, the delayed and the dead-letter topic. -/
structure Observation where
  report : Report
  elapsed : Nat
  published : List Nat

/-- Performs steps one after the other. -/
def observe (w : World) : List Step → List Observation
  | [] => []
  | s :: ss =>
    let (w, report) := perform s w
    let w := w.calm
    let published := [w.queue.active, w.queue.delayed, w.queue.deadLetter].map fun topic =>
      (w.broker.messages topic).length
    ⟨report, w.elapsed, published⟩ :: w.observe ss

end World

end TaskQueue.Simulation
