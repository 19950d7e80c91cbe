import TaskQueue.Task.Context
import TaskQueue.Task.Handler
import TaskQueue.Task.Payload
import TaskQueue.Time.Span

/-!
# Behaviour of handlers

What a handler does in a simulation: it may let time pass and wait for its cancellation before it
ends.
-/

namespace TaskQueue.Simulation

/-- Nanoseconds of virtual time since its start. -/
abbrev Nanos := Nat

/-- What a handler does. -/
inductive Behaviour where
  | finish (f : Payload → HandlerEnd)
  | sleep (span : Time.Span) (next : Behaviour)
  /-- To wait until the run is cancelled. -/
  | untilCancelled (next : Behaviour)

/-- A run of a handler. -/
structure HandlerRun where
  payload : Payload
  token : CancelToken
  behaviour : Behaviour
  /-- When its sleep ends, if it sleeps. -/
  wakesAt : Option Nanos

/-- What has become of a run of a handler. -/
inductive Progress where
  | ended (e : HandlerEnd)
  | waits (r : HandlerRun)

/-- Runs a handler on as far as it gets at a time; `deadline` says when a wait that begins then
ends. -/
def HandlerRun.proceed (payload : Payload) (token : CancelToken) (flags : List Flag) (now : Nanos)
    (deadline : Nanos → Nanos) : Behaviour → Option Nanos → Progress
  | .finish f, _ => .ended (f payload)
  | .sleep span next, wakesAt =>
    let wakesAt := wakesAt.getD (deadline span.nanos)
    if wakesAt ≤ now then proceed payload token flags now deadline next none
    else .waits ⟨payload, token, .sleep span next, some wakesAt⟩
  | .untilCancelled next, _ =>
    if token.isCancelled flags then proceed payload token flags now deadline next none
    else .waits ⟨payload, token, .untilCancelled next, none⟩

end TaskQueue.Simulation
