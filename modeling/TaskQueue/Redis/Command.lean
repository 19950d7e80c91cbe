import TaskQueue.Redis.Entry
import TaskQueue.Time.Span

/-!
# Commands to a Redis server

The four commands by which a stream is kept and read, and the arguments that they are sent as.
-/

namespace TaskQueue.Redis

open Text Time

/-- Which entry a consumer reads. -/
inductive Source where
  /-- The first after an id of those that were handed to it and that it has not acknowledged. -/
  | pending (after : String)
  /-- One that was handed to no consumer, waiting for it if need be. -/
  | fresh (wait : Span)
  deriving DecidableEq

/-- What is sent to a server. -/
inductive Command where
  /-- Adds a group of consumers to a stream. The stream is made if need be. -/
  | createGroup (stream group : String)
  /-- Adds an entry that keeps a message. -/
  | add (stream : String) (m : Message)
  /-- Reads one entry. -/
  | read (stream group consumer : String) (source : Source)
  /-- Acknowledges an entry. -/
  | ack (stream group id : String)
  deriving DecidableEq

namespace Command

/-- The name of a command. -/
def name : Command → String
  | createGroup .. => "XGROUP CREATE"
  | add .. => "XADD"
  | read .. => "XREADGROUP"
  | ack .. => "XACK"

/-- A wait in whole milliseconds of 64 bits, at least one: none at all would be without end. -/
def blockMillis (wait : Span) : Nat := max wait.millis 1 % 18446744073709551616

/-- The arguments that a command is sent as. -/
def args : Command → List Bytes
  | createGroup stream group =>
    ["XGROUP", "CREATE", stream, group, "0", "MKSTREAM"].map Utf8.encodeText
  | add stream m =>
    ["XADD", stream, "*"].map Utf8.encodeText ++
      (messageFields m).flatMap fun (name, bs) => [Utf8.encodeText name, bs]
  | read stream group consumer source =>
    let (block, after) := match source with
      | .pending after => ([], after)
      | .fresh wait => (["BLOCK", (blockMillis wait).repr], ">")
    (["XREADGROUP", "GROUP", group, consumer, "COUNT", "1"] ++ block ++
      ["STREAMS", stream, after]).map Utf8.encodeText
  | ack stream group id => ["XACK", stream, group, id].map Utf8.encodeText

end Command

end TaskQueue.Redis
