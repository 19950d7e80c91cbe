import TaskQueue.Engine.Script
import TaskQueue.Message.Transport
import TaskQueue.Retry.Policy
import TaskQueue.Task.Context
import TaskQueue.Task.Handler
import TaskQueue.Task.Payload
import TaskQueue.Task.Trail
import TaskQueue.Worker.Outcome

/-!
# What engines ask for

Clients, workers, promoters and schedulers are scripts over these requests. A consumer is joined by
`subscribe`; the requests on deliveries go to the one that was joined last.

Some requests take time: waiting for a delivery or for a tick, running a handler and pausing. While
an engine waits it may be told to stop, and the answer says so.

Out of scope: the lines that engines log, and looking at an engine from outside while it runs
(`Simulation` does so between steps).
-/

namespace TaskQueue.Engine

open Time Retry

/-- What waiting for a delivery comes to. -/
inductive Received where
  /-- The engine is to stop. -/
  | cancelled
  | failed (e : TransportError)
  /-- Nothing came in time. -/
  | nothing
  | delivery (d : Delivery)
  deriving DecidableEq

/-- What an engine may ask for. -/
inductive Request where
  /-- The time. -/
  | now
  /-- A new identifier. -/
  | newId
  /-- Whether the engine is to stop. -/
  | isCancelled
  | publish (topic : String) (m : Message)
  /-- To join a group of consumers. -/
  | subscribe (topic group : String)
  /-- The next delivery, within a time. -/
  | receive (wait : Span)
  | ack (d : Delivery)
  | reject (d : Delivery) (requeue : Bool)
  /-- The retry policy as it is now. -/
  | policy
  /-- Whether a task has a handler. -/
  | handles (task : String)
  /-- To run the handler of a task. -/
  | handle (c : Context) (p : Payload)
  /-- To let time pass, unless the engine is to stop. -/
  | pause (wait : Span)
  /-- To keep the trail of a message while it is not resolved. -/
  | remember (position : String) (t : Trail)
  /-- To drop the trail of a message. -/
  | forget (position : String)
  /-- To raise a counter. -/
  | count (c : Worker.Counter)
  /-- The next tick; false when the engine is to stop. -/
  | tick
  /-- To start an enqueue for every job that is due. -/
  | fire (now : Instant)

/-- What comes as an answer. -/
abbrev Answer (ν : Type) : Request → Type
  | .now => Instant
  | .newId => String
  | .isCancelled => Bool
  | .publish .. => Except TransportError Unit
  | .subscribe .. => Except TransportError Unit
  | .receive _ => Received
  | .ack _ => Except TransportError Unit
  | .reject .. => Except TransportError Unit
  | .policy => Policy ν
  | .handles _ => Bool
  | .handle .. => HandlerEnd
  | .pause _ => Unit
  | .remember .. => Unit
  | .forget _ => Unit
  | .count _ => Unit
  | .tick => Bool
  | .fire _ => Unit

/-- A script of an engine whose policy has numbers of kind `ν`. -/
abbrev Program (ν : Type) := Script Request (Answer ν)

/-- Asks for one thing. -/
abbrev ask {ν : Type} (r : Request) : Program ν (Answer ν r) := Script.request r

end TaskQueue.Engine
