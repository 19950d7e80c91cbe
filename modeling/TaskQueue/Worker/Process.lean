import TaskQueue.Engine.Lifecycle
import TaskQueue.Engine.Request
import TaskQueue.Message.Header
import TaskQueue.Retry.Backoff
import TaskQueue.Text.Numeral
import TaskQueue.Worker.Config

/-!
# Resolving a delivery

A worker runs the handler of a task and then does one of these:

* after a success it acknowledges the message;
* after a failure that is retried it publishes a copy that waits, and acknowledges the message;
* after a failure that is not retried, or when the payload cannot be read, it publishes a copy among
  the dead letters with the trail of the message, and acknowledges the message;
* when the task has no handler it acknowledges the message or hands it back.

How often a task has failed travels with it in a header. A count beyond the budget leaves one last
run.

This is a script over `Engine.Request`, with the answers of whatever transport, clock and handlers
there are. Out of scope: what happens inside a handler, and the lines that are logged on the way.
-/

namespace TaskQueue.Worker

open Time Text Engine Retry

/-- Why a worker ends. -/
inductive Failure where
  | notStarted (e : StartError)
  | transport (e : TransportError)
  /-- The due time of a retry is no instant. -/
  | overflow (e : Overflow)
  /-- A retry has no backoff. -/
  | backoff (e : BackoffError)
  deriving DecidableEq

/-- The wording of a failure. -/
def Failure.message : Failure → String
  | notStarted .alreadyRunning => "server is already running"
  | notStarted .stopped => "server has been stopped"
  | transport e => "transport error: " ++ e.message
  | overflow e => e.message
  | backoff e => e.message

/-! ## What is read from and written to a message -/

/-- How often a task has failed before, by its header and within the budget. -/
def priorFailures {ν : Type} (p : Policy ν) (m : Message) : UInt32 :=
  let claimed := ((m.header? Header.retryAttempt).bind (natural? maxNat32)).getD 0
  .ofNat (min claimed (p.maxRetries.toNat - 1))

/-- When a task was first received, by its header, or else now. -/
def firstSeen (m : Message) (now : Instant) : Instant :=
  ((m.header? Header.firstSeenAt).bind Instant.read?).getD now

/-- The copy of a message that waits for its next run. -/
def retryCopy (m : Message) (t : Trail) (backoff : Span) (due : Instant) : Message :=
  (m.dropHeader Header.promotedAt).setHeaders [
    (Header.retryAttempt, t.failures.toNat.repr),
    (Header.scheduledFor, due.renderMillis),
    (Header.scheduledAt, due.seconds.repr),
    (Header.backoffMillis, backoff.millis.repr),
    (Header.correlationId, t.correlationId),
    (Header.lastError, t.lastError.getD ""),
    (Header.firstSeenAt, t.firstSeen.renderMillis),
    (Header.taskName, m.key)]

/-- The copy of a message that is given up. -/
def deadLetterCopy (d : Delivery) (t : Trail) (now : Instant) : Message :=
  d.message.setHeaders [
    (Header.error, t.lastError.getD ""),
    (Header.retryCount, t.failures.toNat.repr),
    (Header.fromOffset, d.position.offset),
    (Header.fromTopic, d.position.topic),
    (Header.correlationId, t.correlationId),
    (Header.metadata, t.render),
    (Header.deadLetteredAt, now.renderMillis)]

/-! ## Resolving -/

section

variable {ν : Type}

/-- What processing a delivery comes to. -/
abbrev Resolution := Except Failure Outcome

/-- Counts an outcome, unless settling the delivery has failed. -/
def conclude (o : Outcome) : Except TransportError Unit → Program ν Resolution
  | .ok () => do
    ask (.count o.counter)
    return .ok o
  | .error e => return .error (.transport e)

/-- Publishes a copy of a message and then acknowledges it. Its trail is dropped whether or not that
succeeds. -/
def forward (d : Delivery) (topic : String) (m : Message) :
    Program ν (Except TransportError Unit) := do
  let routed ← match ← ask (.publish topic m) with
    | .ok () => ask (.ack d)
    | .error e => pure (.error e)
  ask (.forget d.position.render)
  return routed

/-- Gives a message up. -/
def deadLetter (topics : Topics) (d : Delivery) (t : Trail) : Program ν Resolution := do
  let now ← ask .now
  let t := t.record .deadLettered now
  ask (.remember d.position.render t)
  conclude .deadLettered (← forward d topics.deadLetter (deadLetterCopy d t now))

/-- When a message that waits for `backoff` is due. A wait that is too long for an instant to move
by does not count. -/
def dueAfter (now : Instant) (backoff : Span) : Option Instant :=
  if backoff.nanos ≤ Instant.maxMove then now.add? backoff.nanos else now.add? 0

/-- Lets a message wait for its next run. -/
def scheduleRetry (topics : Topics) (d : Delivery) (t : Trail) (backoff : Span) :
    Program ν Resolution := do
  let now ← ask .now
  match dueAfter now backoff with
  | none => return .error (.overflow .beyondRange)
  | some due =>
    let t := t.record .retried now
    ask (.remember d.position.render t)
    conclude .retried (← forward d topics.delayed (retryCopy d.message t backoff due))

/-- Lets a message wait or gives it up, as the policy says. -/
def handleFailure [Number.Arithmetic ν] (topics : Topics) (p : Policy ν) (draw : Draw ν)
    (d : Delivery) (t : Trail) : Program ν Resolution :=
  if p.retries t.failures.toNat (t.lastError.getD "") then
    match p.backoff draw t.failures.toNat with
    | .ok backoff => scheduleRetry topics d t backoff
    | .error e => return .error (.backoff e)
  else deadLetter topics d t

/-- Acknowledges a message whose task has no handler, or hands it back after a pause. -/
def resolveUnknown (c : Config) (d : Delivery) : Program ν Resolution := do
  match c.unknownTask with
  | .skip => conclude .skipped (← ask (.ack d))
  | .requeue =>
    ask (.pause c.requeueDelay)
    conclude .requeued (← ask (.reject d true))

/-- Resolves a delivery. Handlers are told to end by `token`. -/
def process [Number.Arithmetic ν] (c : Config) (draw : Draw ν) (token : CancelToken)
    (d : Delivery) : Program ν Resolution := do
  ask (.count .processed)
  let receivedAt ← ask .now
  let p ← ask .policy
  let m := d.message
  let position := d.position.render
  let failures := priorFailures p m
  let correlationId ← match m.header? Header.correlationId with
    | some id => pure id
    | none => ask .newId
  let t := { Trail.start d.position correlationId (firstSeen m receivedAt) with failures }
  let t := t.record .received receivedAt
  match Payload.ofWire m.payload with
  | .error e =>
    let t := t.recordFailure ("malformed payload: " ++ e.message) (← ask .now)
    ask (.remember position t)
    deadLetter c.topics d t
  | .ok payload =>
    let t := t.record .parsed (← ask .now)
    if ← ask (.handles m.key) then
      let t := t.record .dispatched (← ask .now)
      let context : Context := ⟨m.key, correlationId, failures, position, token⟩
      match (← ask (.handle context payload)).error? with
      | none =>
        match ← ask (.ack d) with
        | .ok () =>
          ask (.forget position)
          conclude .succeeded (.ok ())
        | .error e => return .error (.transport e)
      | some error =>
        let t := t.recordFailure error (← ask .now)
        ask (.remember position t)
        handleFailure c.topics p draw d t
    else resolveUnknown c d

end

end TaskQueue.Worker
