import TaskQueue.Engine.Turn
import TaskQueue.Schedule.Config
import TaskQueue.Schedule.Table

/-!
# The turns of a scheduler

At every tick a scheduler starts an enqueue for each job that is due. It ends when it is told to.

Out of scope: when ticks come, which is up to who answers (`Simulation`).
-/

namespace TaskQueue.Schedule

open Engine

variable {ν : Type}

/-- Starts a scheduler, unless its ticks come without a break. -/
def start (c : Config) (l : Lifecycle) : Except Failure Lifecycle := do
  if c.tickInterval.isZero then throw .invalidInterval
  l.start.mapError .notStarted

/-- Waits for the next tick and starts what is due. -/
def turn : Program ν (Turn Unit Failure) := do
  if ← ask .tick then
    ask (.fire (← ask .now))
    return .goOn ()
  else
    return .ended (.ok ())

end TaskQueue.Schedule
