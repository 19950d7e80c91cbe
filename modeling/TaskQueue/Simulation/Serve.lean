import TaskQueue.Simulation.World

/-!
# Answering requests

What the simulated world answers to a thread, or why the thread has to wait. A fault of a handle
comes before everything else; a thread that is to stop learns so before it learns of a delivery.
-/

namespace TaskQueue.Simulation

open Time Number Engine Broker

namespace World

/-- Uses up one call of an operation on a handle. -/
def call (w : World) (name : String) (op : Operation) : Except TransportError Unit × World :=
  let h := w.handle name
  let (e, faults) := useCall op h.faults
  let w := { w with handles := w.handles.insert name { h with faults } }
  match e with
  | some e => (.error e, w)
  | none => (.ok (), w)

/-- As `call`, but a closed handle fails. -/
def callOpen (w : World) (name : String) (op : Operation) : Except TransportError Unit × World :=
  match w.call name op with
  | (.error e, w) => (.error e, w)
  | (.ok (), w) => (if (w.handle name).closed then .error .closed else .ok (), w)

/-- Publishes a message. -/
def publish (w : World) (name topic : String) (m : Message) : Except TransportError Unit × World :=
  match w.callOpen name .publish with
  | (.error e, w) => (.error e, w)
  | (.ok (), w) => (.ok (), { w with broker := w.broker.publish topic m })

/-- Joins a group. -/
def subscribe (w : World) (name topic group : String) : Except TransportError Consumer × World :=
  match w.callOpen name .subscribe with
  | (.error e, w) => (.error e, w)
  | (.ok (), w) => (.ok ⟨name, topic, group⟩, { w with broker := w.broker.subscribe topic group })

/-- Closes a handle. -/
def closeHandle (w : World) (name : String) : Except TransportError Unit × World :=
  match w.call name .close with
  | (.error e, w) => (.error e, w)
  | (.ok (), w) =>
    (.ok (), { w with handles := w.handles.insert name { w.handle name with closed := true } })

/-- Settles a delivery in some way. -/
def settle (w : World) (c : Consumer) (op : Operation)
    (f : Broker.State → Except TransportError Broker.State) : Except TransportError Unit × World :=
  match w.call c.handle op with
  | (.error e, w) => (.error e, w)
  | (.ok (), w) =>
    match f w.broker with
    | .ok broker => (.ok (), { w with broker })
    | .error e => (.error e, w)

/-- Acknowledges a delivery. -/
def ack (w : World) (c : Consumer) (d : Delivery) : Except TransportError Unit × World :=
  w.settle c .ack fun b => b.ack c.topic c.group d.position

/-- Rejects a delivery. -/
def reject (w : World) (c : Consumer) (d : Delivery) (requeue : Bool) :
    Except TransportError Unit × World :=
  w.settle c .reject fun b => b.reject c.topic c.group d.position requeue

/-- Looks for a delivery; none when it has to be waited for. -/
def tryReceive (w : World) (c : Consumer) (deadline : Nanos) : Option Received × World :=
  if (w.handle c.handle).closed then (some (.failed .closed), w)
  else
    match w.broker.receive c.topic c.group with
    | (some d, broker) => (some (.delivery d), { w with broker })
    | (none, broker) =>
      (if deadline ≤ w.nanos then some .nothing else none, { w with broker })

/-- Enters a call of a handler at `now` and says what the handler will do. -/
def enterHandler (w : World) (c : Context) (p : Payload) (now : Instant) : HandlerRun × World :=
  let call : Call := ⟨c, p, w.isCancelled c.token, now⟩
  let h : Handler := (w.handlers.get? c.task).getD ⟨0, [], true⟩
  let w := if h.isNoted then { w with calls := w.calls ++ [call] } else w
  let behaviour := (h.behaviours[min h.calls (h.behaviours.length - 1)]?).getD
    (.finish fun _ => .succeeded)
  (⟨p, c.token, behaviour, none⟩,
    { w with handlers := w.handlers.insert c.task { h with calls := h.calls + 1 } })

end World

/-- What a request comes to for now. -/
inductive Served (r : Request) where
  | answered (a : Answer Double r) (w : World) (t : Thread)
  /-- The thread has to wait; `again` says that it may go on before time has passed. -/
  | waiting (w : World) (t : Thread) (again : Bool)
  /-- A time cannot be told. -/
  | overflowed (e : Overflow) (w : World)

/-- The consumer of a thread. -/
def Thread.joined (t : Thread) : Consumer := t.consumer.getD ⟨t.handle, "", ""⟩

/-- Waits for a delivery. -/
def serveReceive (w : World) (t : Thread) (wait : Span) : Served (.receive wait) :=
  if w.isCancelled t.token then .answered .cancelled w t
  else
    let attempt (w : World) (deadline : Nanos) : Served (.receive wait) :=
      match w.tryReceive t.joined deadline with
      | (some r, w) => .answered r w t
      | (none, w) => .waiting w { t with wait := some (.delivery deadline) } false
    match t.wait with
    | some (.delivery deadline) => attempt w deadline
    | _ =>
      match w.call t.joined.handle .receive with
      | (.error e, w) => .answered (.failed e) w t
      | (.ok (), w) =>
        match World.deadlineFrom? w.nanos wait.nanos with
        | some deadline => attempt w deadline
        | none => .overflowed .deadline w

/-- Runs a handler. Entering it is a wait of its own. -/
def serveHandle (w : World) (t : Thread) (c : Context) (p : Payload) : Served (.handle c p) :=
  match t.wait with
  | some (.handler r) =>
    match HandlerRun.proceed r.payload r.token w.flags w.nanos w.pauseEnd r.behaviour r.wakesAt
        with
    | .ended e => .answered e w t
    | .waits r => .waiting w { t with wait := some (.handler r) } false
  | _ =>
    match w.now with
    | .error e => .overflowed e w
    | .ok now =>
      let (r, w) := w.enterHandler c p now
      .waiting w { t with wait := some (.handler r) } true

/-- Lets time pass. -/
def servePause (w : World) (t : Thread) (wait : Span) : Served (.pause wait) :=
  let deadline := match t.wait with
    | some (.time deadline) => deadline
    | _ => w.pauseEnd wait.nanos
  if deadline ≤ w.nanos || w.isCancelled t.token then .answered () w t
  else .waiting w { t with wait := some (.time deadline) } false

/-- Waits for a tick. -/
def serveTick (w : World) (t : Thread) : Served .tick :=
  if w.isCancelled t.token then .answered false w t
  else if t.nextTick ≤ w.nanos then
    .answered true w { t with nextTick := w.tickAfter t.nextTick }
  else .waiting w { t with wait := some (.time t.nextTick) } false

/-- Answers a request of a thread. -/
def serve : (r : Request) → World → Thread → Served r
  | .now, w, t =>
    match w.now with
    | .ok now => .answered now w t
    | .error e => .overflowed e w
  | .newId, w, t =>
    .answered (identifier w.identifiers) { w with identifiers := w.identifiers + 1 } t
  | .isCancelled, w, t => .answered (w.isCancelled t.token) w t
  | .publish topic m, w, t =>
    let (r, w) := w.publish t.handle topic m
    .answered r w t
  | .subscribe topic group, w, t =>
    match w.subscribe t.handle topic group with
    | (.ok c, w) => .answered (.ok ()) w { t with consumer := some c }
    | (.error e, w) => .answered (.error e) w t
  | .receive wait, w, t => serveReceive w t wait
  | .ack d, w, t =>
    let (r, w) := w.ack t.joined d
    .answered r w t
  | .reject d requeue, w, t =>
    let (r, w) := w.reject t.joined d requeue
    .answered r w t
  | .policy, w, t => .answered w.policy w t
  | .handles task, w, t => .answered (w.handlers.contains task) w t
  | .handle c p, w, t => serveHandle w t c p
  | .pause wait, w, t => servePause w t wait
  | .remember position trail, w, t =>
    .answered () { w with store := w.store.insert position trail } t
  | .forget position, w, t => .answered () { w with store := w.store.erase position } t
  | .count c, w, t => .answered () { w with counters := w.counters.raise c } t
  | .tick, w, t => serveTick w t
  | .fire now, w, t => .answered () (w.fire now).2 t

end TaskQueue.Simulation
