import TaskQueue.Engine.Lifecycle
import TaskQueue.Engine.Request
import TaskQueue.Engine.Turn
import TaskQueue.Promotion.Config
import TaskQueue.Promotion.DelayQueue
import TaskQueue.Promotion.DueTime

/-!
# The turns of a promoter

A promoter takes the messages that wait and holds them, unacknowledged, until they are due. Then it
publishes each on the active topic and acknowledges it. It looks for due messages whenever one has
come, when the next one should be due, and once per poll interval.

Joining the group and the turns are scripts. Out of scope: taking the turns, starting and stopping
(`Engine.Lifecycle`, `Simulation`), and the lines that are logged on the way.
-/

namespace TaskQueue.Promotion

open Time Engine

/-- Why a promoter ends. -/
inductive Failure where
  | notStarted (e : StartError)
  | transport (e : TransportError)
  deriving DecidableEq

/-- The wording of a failure. -/
def Failure.message : Failure → String
  | notStarted .alreadyRunning => "promoter is already running"
  | notStarted .stopped => "promoter has been stopped"
  | transport e => "transport error: " ++ e.message

variable {ν : Type}

/-- The deliveries that a promoter holds. -/
abbrev Held := DelayQueue Delivery

/-- Holds a delivery until it is due. One that does not say so is due at once. -/
def hold (q : Held) (d : Delivery) : Program ν Held := do
  match dueTime? d.message with
  | some due => return q.push due d
  | none => return q.push (← ask .now) d

/-- How long to wait for a delivery: until the next one is due, a millisecond at least and the poll
interval at most. -/
def nextWait (c : Config) (q : Held) : Program ν Span := do
  match q.nextDue? with
  | none => return c.pollInterval
  | some due =>
    let now ← ask .now
    return (((due.until? now).getD .zero).min c.pollInterval).max (.ofMillis 1)

/-- The copy of a message that is ready to run. -/
def promotedCopy (m : Message) (now : Instant) : Message :=
  m.setHeader Header.promotedAt now.renderMillis

/-- Publishes the copies of deliveries and acknowledges them, one after the other up to the first
that fails. -/
def promoteAll (c : Config) (now : Instant) : List Delivery → Program ν (Except TransportError Unit)
  | [] => return .ok ()
  | d :: ds => do
    match ← ask (.publish c.topics.active (promotedCopy d.message now)) with
    | .error e => return .error e
    | .ok () =>
      match ← ask (.ack d) with
      | .error e => return .error e
      | .ok () => promoteAll c now ds

/-- Promotes what is due. Whatever is due is no longer held afterwards, even when that fails. -/
def promoteDue (c : Config) (q : Held) : Program ν (Except TransportError Unit × Held) := do
  let now ← ask .now
  return (← promoteAll c now (q.takeDue now), q.dropDue now)

/-- Promotes what is due and goes on, unless the transport fails. -/
def promoteAndGoOn (c : Config) (q : Held) : Program ν (Turn Held Failure) := do
  match ← promoteDue c q with
  | (.ok (), q) => return .goOn q
  | (.error e, _) => return .ended (.error (.transport e))

/-- Joins the group. -/
def opening (c : Config) : Program ν (Turn Held Failure) := do
  match ← ask (.subscribe c.topics.delayed c.group) with
  | .ok () => return .goOn ∅
  | .error e => return .ended (.error (.transport e))

/-- Takes one waiting message, if one comes in time, and promotes what is due. -/
def turn (c : Config) (q : Held) : Program ν (Turn Held Failure) := do
  let wait ← nextWait c q
  match ← ask (.receive wait) with
  | .cancelled => return .ended (.ok ())
  | .nothing => promoteAndGoOn c q
  | .delivery d => promoteAndGoOn c (← hold q d)
  | .failed e =>
    if e = .closed then
      if ← ask .isCancelled then return .ended (.ok ())
    return .ended (.error (.transport e))

end TaskQueue.Promotion
