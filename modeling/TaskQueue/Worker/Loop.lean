import TaskQueue.Engine.Turn
import TaskQueue.Worker.Process

/-!
# The turns of a worker

A worker joins its group and then takes one message after the other. It ends when it is told to, or
when the transport fails. That its own handle was closed is no failure once it was told to end.

Out of scope: starting and stopping (`Engine.Lifecycle`), and more than one message at a time, which
a worker never has.
-/

namespace TaskQueue.Worker

open Engine Retry

variable {ν : Type}

/-- Joins the group. -/
def opening (c : Config) : Program ν (Turn Unit Failure) := do
  match ← ask (.subscribe c.topics.active c.group) with
  | .ok () => return .goOn ()
  | .error e => return .ended (.error (.transport e))

/-- Takes one message, if one comes in time. -/
def turn [Number.Arithmetic ν] (c : Config) (draw : Draw ν) (token : CancelToken) :
    Program ν (Turn Unit Failure) := do
  match ← ask (.receive c.pollTimeout) with
  | .cancelled => return .ended (.ok ())
  | .nothing => return .goOn ()
  | .delivery d =>
    match ← process c draw token d with
    | .ok _ => return .goOn ()
    | .error e => return .ended (.error e)
  | .failed e =>
    if e = .closed then
      if ← ask .isCancelled then return .ended (.ok ())
    return .ended (.error (.transport e))

end TaskQueue.Worker
