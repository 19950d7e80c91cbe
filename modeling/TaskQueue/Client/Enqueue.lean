import TaskQueue.Engine.Request
import TaskQueue.Message.Header
import TaskQueue.Queue.Topics
import TaskQueue.Text.Blank

/-!
# Putting tasks on a queue

A client publishes a task for immediate execution, or publishes it where tasks wait and says when it
is due.

Out of scope: how identifiers are made (they are answered), and closing a client, which closes the
handle that it was given.
-/

namespace TaskQueue.Client

open Time Text Engine

/-- Why a task was not put on the queue. -/
inductive ClientError where
  /-- The name of the task is blank. -/
  | emptyTaskName
  /-- The due time is no instant. -/
  | invalidDelay (delay : Span)
  | payload (e : PayloadError)
  | transport (e : TransportError)
  deriving DecidableEq

/-- The wording of an error. -/
def ClientError.message : ClientError → String
  | emptyTaskName => "task name must not be empty"
  | invalidDelay delay => "delay of " ++ delay.describe ++ " puts the due time out of range"
  | payload e => "payload error: " ++ e.message
  | transport e => "transport error: " ++ e.message

variable {ν : Type}

/-- The message of a task; none when the name of the task is blank. -/
def taskMessage? (task : String) (p : Payload) (id : String) : Option Message :=
  if isAllBlank task then none
  else some ({ key := task, payload := p.toWire : Message }.setHeader Header.correlationId id)

/-- Publishes the message of a task. The answer is the identifier of the task. -/
def send (topic : String) (m : Message) (id : String) : Program ν (Except ClientError String) := do
  match ← ask (.publish topic m) with
  | .ok () => return .ok id
  | .error e => return .error (.transport e)

/-- Puts a task on a queue, to be run at once. -/
def enqueue (topics : Topics) (task : String) (p : Payload) :
    Program ν (Except ClientError String) := do
  let id ← ask .newId
  match taskMessage? task p id with
  | none => return .error .emptyTaskName
  | some m =>
    let now ← ask .now
    send topics.active (m.setHeader Header.enqueuedAt now.renderMillis) id

/-- The headers that tell when a waiting message is due. -/
def dueHeaders (due : Instant) : List (String × String) :=
  [(Header.scheduledAt, due.seconds.repr), (Header.scheduledFor, due.renderMillis)]

/-- Puts a task on a queue, to be run after a delay. Without a delay it is run at once. -/
def enqueueDelayed (topics : Topics) (task : String) (p : Payload) (delay : Span) :
    Program ν (Except ClientError String) := do
  if delay.isZero then enqueue topics task p
  else
    let now ← ask .now
    match now.addSpan? delay with
    | none => return .error (.invalidDelay delay)
    | some due =>
      let id ← ask .newId
      match taskMessage? task p id with
      | none => return .error .emptyTaskName
      | some m =>
        send topics.delayed (m.setHeaders (dueHeaders due ++
          [(Header.taskName, task), (Header.enqueuedAt, now.renderMillis)])) id

end TaskQueue.Client
