/-!
# Outcomes and counters of a worker
-/

namespace TaskQueue.Worker

/-- How a delivery was resolved. -/
inductive Outcome where
  | succeeded
  | retried
  | deadLettered
  | skipped
  | requeued
  deriving DecidableEq, Repr

/-- The name of an outcome. -/
def Outcome.name : Outcome → String
  | succeeded => "succeeded"
  | retried => "retried"
  | deadLettered => "dead_lettered"
  | skipped => "skipped"
  | requeued => "requeued"

/-- What a worker counts. -/
inductive Counter where
  | processed
  | succeeded
  | retried
  | deadLettered
  | skipped
  deriving DecidableEq, Repr

/-- The counter of an outcome. A requeued delivery counts as skipped. -/
def Outcome.counter : Outcome → Counter
  | succeeded => .succeeded
  | retried => .retried
  | deadLettered => .deadLettered
  | skipped | requeued => .skipped

/-- What a worker has counted since it was made. -/
structure Counters where
  processed : Nat
  succeeded : Nat
  retried : Nat
  deadLettered : Nat
  skipped : Nat
  deriving DecidableEq

namespace Counters

/-- Nothing yet. -/
def zero : Counters := ⟨0, 0, 0, 0, 0⟩

instance : Inhabited Counters := ⟨zero⟩

/-- What a counter stands at. -/
def count (cs : Counters) : Counter → Nat
  | .processed => cs.processed
  | .succeeded => cs.succeeded
  | .retried => cs.retried
  | .deadLettered => cs.deadLettered
  | .skipped => cs.skipped

/-- Raises a counter by one. -/
def raise (cs : Counters) : Counter → Counters
  | .processed => { cs with processed := cs.processed + 1 }
  | .succeeded => { cs with succeeded := cs.succeeded + 1 }
  | .retried => { cs with retried := cs.retried + 1 }
  | .deadLettered => { cs with deadLettered := cs.deadLettered + 1 }
  | .skipped => { cs with skipped := cs.skipped + 1 }

theorem count_raise (cs : Counters) (c c' : Counter) :
    (cs.raise c).count c' = cs.count c' + if c' = c then 1 else 0 := by
  cases c <;> cases c' <;> rfl

end Counters

end TaskQueue.Worker
