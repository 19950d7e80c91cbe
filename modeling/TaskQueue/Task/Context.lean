/-!
# The context of a run

What a handler is told about the run besides its payload, and how it learns that the run should end.

A `CancelToken` watches flags, which are set once and stay so. It is cancelled as soon as one of its
flags is set. A token that also watches the flags of another is cancelled with it.

Out of scope: waiting for a token, which only handlers do (`Simulation.Behaviour`).
-/

namespace TaskQueue

/-- A flag that can be set once, by its number. -/
abbrev Flag := Nat

/-- Watches flags. -/
structure CancelToken where
  flags : List Flag
  deriving DecidableEq, Inhabited

namespace CancelToken

/-- A token that is never cancelled. -/
def never : CancelToken := ⟨[]⟩

/-- A token that watches one flag. -/
def ofFlag (f : Flag) : CancelToken := ⟨[f]⟩

/-- A token that is cancelled with either of two. -/
def either (t u : CancelToken) : CancelToken := ⟨t.flags ++ u.flags⟩

/-- One of the flags has been set. -/
def isCancelled (t : CancelToken) (set : List Flag) : Bool := t.flags.any fun f => set.contains f

@[simp] theorem isCancelled_never (set : List Flag) : never.isCancelled set = false := rfl

@[simp] theorem isCancelled_either (t u : CancelToken) (set : List Flag) :
    (t.either u).isCancelled set = (t.isCancelled set || u.isCancelled set) :=
  List.any_append

end CancelToken

/-- What a handler is told about its run. -/
structure Context where
  task : String
  correlationId : String
  /-- Failed runs before this one. -/
  failures : UInt32
  /-- The text of the position of the message. -/
  position : String
  /-- Cancelled when the run should end. -/
  token : CancelToken
  deriving DecidableEq

namespace Context

/-- The context of a first run that belongs to no message. -/
def first (task correlationId : String) (token : CancelToken) : Context :=
  ⟨task, correlationId, 0, "", token⟩

/-- The run is not the first. -/
def isRetry (c : Context) : Bool := 0 < c.failures

end Context

end TaskQueue
