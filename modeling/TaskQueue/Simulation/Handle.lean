import TaskQueue.Message.Transport

/-!
# Handles with faults

A handle onto a broker can be closed on its own, and it can be made to fail: a fault is an error
that one call of an operation brings about instead of reaching the broker.
-/

namespace TaskQueue.Simulation

/-- What is called on a handle or on a consumer made from it. -/
inductive Operation where
  | publish
  | subscribe
  | close
  | receive
  | ack
  | reject
  deriving DecidableEq, Repr

/-- An error of a call to come. -/
structure Fault where
  operation : Operation
  /-- How many calls of the operation go well before. -/
  after : Nat
  error : TransportError

/-- A handle onto a broker. -/
structure Handle where
  closed : Bool
  /-- Faults to come; those of one operation follow each other. -/
  faults : List Fault

/-- An open handle that does not fail. -/
instance : Inhabited Handle := ⟨⟨false, []⟩⟩

/-- Uses up one call: the error of the first fault of the operation when its time has come, and the
faults that are left. -/
def useCall (op : Operation) : List Fault → Option TransportError × List Fault
  | [] => (none, [])
  | f :: fs =>
    if f.operation = op then
      if f.after = 0 then (some f.error, fs) else (none, { f with after := f.after - 1 } :: fs)
    else
      let (e, fs) := useCall op fs
      (e, f :: fs)

end TaskQueue.Simulation
