import TaskQueue.Retry.Policy

/-!
# Backoff

How long a task waits after it has failed `n` times: the initial delay, multiplied for every further
failure up to the sixty-fourth, capped, spread by the jitter, and capped again. Delays are counted
in milliseconds and rounded to whole ones at the end.

A random jitter is drawn from a range that starts at zero. The `draw` stands for chance: from the
upper end of the range it takes a point of it. There is nothing to draw from when the upper end lies
below zero, which a negative multiplier brings about.

Out of scope: how likely each point is.

Results:

* `backoff_zero`: who has not failed does not wait.
-/

namespace TaskQueue.Retry

open Time Number Arithmetic

/-- A backoff has no value. -/
inductive BackoffError where
  /-- The range of the jitter ends below its start. -/
  | emptyRange
  deriving DecidableEq, Repr

/-- The wording of an error. -/
def BackoffError.message : BackoffError → String
  | emptyRange => "cannot sample empty range"

/-- Takes a point between zero and the given number. -/
abbrev Draw (ν : Type) := ν → ν

namespace Policy

variable {ν : Type} [Arithmetic ν]

/-- The largest delay in milliseconds. -/
def ceiling (p : Policy ν) : ν := ofNat p.maxBackoff.millis

/-- The delay in milliseconds before it is spread. -/
def baseDelay (p : Policy ν) (failures : Nat) : ν :=
  let d := mul (ofNat p.initialBackoff.millis) (pow p.multiplier (Nat.min (failures - 1) 63))
  if !isFinite d || below p.ceiling d then p.ceiling else d

/-- The spread of a delay in milliseconds. -/
def jitter (p : Policy ν) (draw : Draw ν) (delay : ν) : Except BackoffError ν :=
  let fraction := clampUnit p.jitterFraction
  match p.jitterMode with
  | .deterministic => .ok (mul (mul half fraction) delay)
  | .random =>
    if below (ofNat 0) fraction then
      let top := mul fraction delay
      if below top (ofNat 0) then .error .emptyRange else .ok (draw top)
    else .ok (ofNat 0)

/-- How long a task waits that has failed `failures` times. -/
def backoff (p : Policy ν) (draw : Draw ν) (failures : Nat) : Except BackoffError Span :=
  if failures = 0 then .ok .zero
  else
    let delay := p.baseDelay failures
    match p.jitter draw delay with
    | .error e => .error e
    | .ok spread =>
      .ok (.ofMillis (round (greatest (least (add delay spread) p.ceiling) (ofNat 0))))

@[simp] theorem backoff_zero (p : Policy ν) (draw : Draw ν) : p.backoff draw 0 = .ok .zero := rfl

end Policy

end TaskQueue.Retry
