/-!
# Starting and stopping

An engine runs at most once at a time, and never again after it was stopped.

Out of scope: two calls at the same moment. The flags are set one at a time, so one of the calls
comes first.

Results:

* `start_eq_ok_iff`: when an engine may be started.
-/

namespace TaskQueue.Engine

/-- Whether an engine runs, and whether it was stopped for good. -/
structure Lifecycle where
  running : Bool
  stopped : Bool
  deriving DecidableEq

/-- Why an engine cannot be started. -/
inductive StartError where
  | alreadyRunning
  | stopped
  deriving DecidableEq, Repr

namespace Lifecycle

/-- Neither started nor stopped. -/
def fresh : Lifecycle := ⟨false, false⟩

instance : Inhabited Lifecycle := ⟨fresh⟩

/-- Starts an engine. -/
def start (l : Lifecycle) : Except StartError Lifecycle :=
  if l.stopped then .error .stopped
  else if l.running then .error .alreadyRunning
  else .ok { l with running := true }

/-- The engine has come to its end. -/
def finish (l : Lifecycle) : Lifecycle := { l with running := false }

/-- Stops an engine for good. -/
def stop (l : Lifecycle) : Lifecycle := { l with stopped := true }

theorem start_eq_ok_iff {l l' : Lifecycle} :
    l.start = .ok l' ↔ l.stopped = false ∧ l.running = false ∧ l' = ⟨true, false⟩ := by
  obtain ⟨_ | _, _ | _⟩ := l <;> simp [start, eq_comm]

end Lifecycle

end TaskQueue.Engine
