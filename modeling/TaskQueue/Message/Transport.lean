/-!
# Transport errors

What can go wrong between an engine and a broker.

A transport is told apart by its answers alone: `Broker` and `Redis` give them. Out of scope:
transports of other kinds.
-/

namespace TaskQueue

/-- What can go wrong on the way to a broker. -/
inductive TransportError where
  /-- The handle was closed. -/
  | closed
  | connection (reason : String)
  | command (reason : String)
  | serialization (reason : String)
  | deserialization (reason : String)
  /-- The state of the broker was left broken. -/
  | poisoned
  deriving DecidableEq, Repr, Inhabited

/-- The wording of an error. -/
def TransportError.message : TransportError → String
  | closed => "transport is closed"
  | connection reason => "connection error: " ++ reason
  | command reason => "command error: " ++ reason
  | serialization reason => "serialization error: " ++ reason
  | deserialization reason => "deserialization error: " ++ reason
  | poisoned => "transport state poisoned"

end TaskQueue
