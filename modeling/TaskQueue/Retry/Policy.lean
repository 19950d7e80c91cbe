import TaskQueue.Json.Codec
import TaskQueue.Number.Arithmetic
import TaskQueue.Text.Occurrence

/-!
# Retry policies

A `Policy` says whether a failed task gets another run and how long it waits for it. A task that has
failed as often as the budget allows is given up. Otherwise the text of the failure decides: one of
the forbidden texts in it rules a retry out, and if there are allowed texts, one of them must be in
it.

The numbers of a policy are of any kind with an `Arithmetic`.

Results:

* `retries_iff`: when a failure is followed by a retry.
-/

namespace TaskQueue.Retry

open Json Time Number Text

/-- How a delay is spread. -/
inductive JitterMode where
  /-- By half of the largest amount. -/
  | deterministic
  /-- By an amount drawn at random. -/
  | random
  deriving DecidableEq, Repr

namespace JitterMode

/-- The name of a mode. -/
def name : JitterMode → String
  | deterministic => "deterministic"
  | random => "random"

/-- The mode of a name. -/
def ofName? (s : String) : Option JitterMode :=
  [deterministic, random].find? fun mode => mode.name = s

end JitterMode

instance : Codec JitterMode where
  encode m := .text m.name
  decode v := v.choice?.bind JitterMode.ofName?

/-- Whether and when failed tasks run again. -/
structure Policy (ν : Type) where
  /-- After so many failures a task is given up. -/
  maxRetries : UInt32
  /-- Delay before the first retry. -/
  initialBackoff : Span
  /-- No delay is longer. -/
  maxBackoff : Span
  /-- By which the delay grows with each failure. -/
  multiplier : ν
  /-- The largest spread of a delay, as a part of it. -/
  jitterFraction : ν
  jitterMode : JitterMode
  /-- If there are any, only failures with one of these texts are retried. -/
  allowed : List String
  /-- Failures with one of these texts are not retried. -/
  forbidden : List String
  deriving DecidableEq

namespace Policy

variable {ν : Type}

/-- Three failures, one second doubled up to a minute, and a spread of a tenth. -/
def standard : Policy Double where
  maxRetries := 3
  initialBackoff := Span.ofSeconds 1
  maxBackoff := Span.ofSeconds 60
  multiplier := ⟨0x4000000000000000⟩
  jitterFraction := ⟨0x3FB999999999999A⟩
  jitterMode := .deterministic
  allowed := []
  forbidden := []

instance : Inhabited (Policy Double) := ⟨standard⟩

/-- Gives up at the first failure. -/
def noRetry : Policy Double := { standard with maxRetries := 1 }

/-- One of the texts occurs in an error. -/
def mentions (texts : List String) (error : String) : Bool :=
  texts.any fun s => occursIn s.toList error.toList

/-- A task that has failed `failures` times, the last time with `error`, gets another run. -/
def retries (p : Policy ν) (failures : Nat) (error : String) : Bool :=
  failures < p.maxRetries.toNat && !mentions p.forbidden error &&
    (p.allowed.isEmpty || mentions p.allowed error)

theorem retries_iff (p : Policy ν) (failures : Nat) (error : String) :
    p.retries failures error = true ↔
      failures < p.maxRetries.toNat ∧ mentions p.forbidden error = false ∧
      (p.allowed = [] ∨ mentions p.allowed error = true) := by
  simp [retries, and_assoc]

end Policy

/-- Fields that are missing take the standard values. -/
instance : Codec (Policy Double) where
  encode p :=
    .object [("max_retries", encode p.maxRetries), ("initial_backoff", encode p.initialBackoff),
      ("max_backoff", encode p.maxBackoff), ("backoff_multiplier", encode p.multiplier),
      ("jitter_fraction", encode p.jitterFraction), ("jitter_mode", encode p.jitterMode),
      ("retryable_errors", encode p.allowed), ("non_retryable_errors", encode p.forbidden)]
  decode v := do
    let [maxRetries, initialBackoff, maxBackoff, multiplier, jitterFraction, jitterMode, allowed,
        forbidden] ←
      v.fields? ["max_retries", "initial_backoff", "max_backoff", "backoff_multiplier",
        "jitter_fraction", "jitter_mode", "retryable_errors", "non_retryable_errors"] 0 | none
    let s := Policy.standard
    return ⟨← withDefault s.maxRetries maxRetries, ← withDefault s.initialBackoff initialBackoff,
      ← withDefault s.maxBackoff maxBackoff, ← withDefault s.multiplier multiplier,
      ← withDefault s.jitterFraction jitterFraction, ← withDefault s.jitterMode jitterMode,
      ← withDefault s.allowed allowed, ← withDefault s.forbidden forbidden⟩

end TaskQueue.Retry
