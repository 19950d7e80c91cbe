import TaskQueue.Engine.Script
import TaskQueue.Redis.Address
import TaskQueue.Redis.Command
import TaskQueue.Redis.Config
import TaskQueue.Time.Instant

/-!
# Streams as topics

A topic is a stream. Publishing adds an entry; joining a group makes the group and gives a consumer
a connection of its own. A consumer first reads the entries that were handed to it before, one after
the other, and acknowledges those that are trimmed. Once there are none left it only reads entries
that were handed to nobody.

An entry that is no message is reported among the dead letters of the topic and then acknowledged.
Handing a message back adds a copy of it and then acknowledges it.

Everything here is a script over what a transport asks for: whether it is open, the time, a new
connection, and the reply to a command.

Out of scope: the server (`Peer` answers from a script), how commands and replies are sent, and
connections that are made anew after a loss.
-/

namespace TaskQueue.Redis

open Engine Time

/-- Why there is no connection to a server. -/
inductive LinkError where
  | address (e : AddressError)
  /-- There is no socket file. -/
  | noSocket
  | refused
  /-- The path of a socket file holds a zero byte. -/
  | zeroInPath
  | pathTooLong
  deriving DecidableEq, Repr

/-- The wording of an error. -/
def LinkError.message : LinkError → String
  | address e => e.message
  | noSocket => "No such file or directory (os error 2)"
  | refused => "Connection refused (os error 111)"
  | zeroInPath => "paths must not contain interior null bytes"
  | pathTooLong => "path must be shorter than SUN_LEN"

/-- What a transport may ask for. -/
inductive Request where
  /-- Whether the transport is open. -/
  | isOpen
  /-- The time. -/
  | now
  /-- A new connection. -/
  | connect
  /-- The reply to a command. -/
  | send (c : Command)

/-- What comes as an answer. -/
abbrev Answer : Request → Type
  | .isOpen => Bool
  | .now => Instant
  | .connect => Except LinkError Unit
  | .send _ => Reply

/-- A script of a transport. -/
abbrev Program := Script Request Answer

/-- Asks for one thing. -/
abbrev ask (r : Request) : Program (Answer r) := Script.request r

/-- What comes of a request to a transport. -/
abbrev Result := Except TransportError

variable {α : Type}

/-! ## Commands -/

/-- Does something unless the transport is closed. -/
def whileOpen (next : Program (Result α)) : Program (Result α) := do
  if ← ask .isOpen then next else return .error .closed

/-- The error of a command. -/
def commandError (c : Command) (e : ReplyError) : TransportError :=
  .command (c.name ++ " failed: " ++ e.message)

/-- Sends a command and reads what comes back. -/
def call (c : Command) (read : Datum → Except ReplyError α) : Program (Result α) := do
  return match ← ask (.send c) with
    | .error e => .error (commandError c (.server e))
    | .ok d => (read d).mapError (commandError c)

/-- Adds an entry that keeps a message. -/
def append (stream : String) (m : Message) : Program (Result Unit) := do
  return (← call (.add stream m) Datum.text).map fun _ => ()

/-! ## The shared connection -/

/-- Publishes a message on a topic. -/
def publish (c : Config) (topic : String) (m : Message) : Program (Result Unit) :=
  whileOpen (append (c.streamKey topic) m)

/-! ## Consumers -/

/-- A member of a group that reads a topic. -/
structure Consumer where
  config : Config
  topic : String
  group : String
  /-- The id after which the entries that were handed to it before are read; none once there are
  none left. -/
  cursor : Option String
  deriving DecidableEq

/-- The code of the error that a group exists. -/
def groupExists : String := "BUSYGROUP"

/-- Makes a group, which may exist. -/
def createGroup (stream group : String) : Program (Result Unit) := do
  let c := .createGroup stream group
  match ← ask (.send c) with
  | .ok d => return (d.text.mapError (commandError c)).map fun _ => ()
  | .error e =>
    if e.code = groupExists then return .ok ()
    else return .error (commandError c (.server e))

/-- Joins a group over a new connection. -/
def subscribe (c : Config) (topic group : String) : Program (Result Consumer) :=
  whileOpen do
    match ← ask .connect with
    | .error e => return .error (.connection e.message)
    | .ok () => return (← createGroup (c.streamKey topic) group).map fun _ =>
        ⟨c, topic, group, some "0"⟩

namespace Consumer

/-- The key of the stream that is read. -/
def stream (c : Consumer) : String := c.config.streamKey c.topic

/-- Reads one entry. -/
def read (c : Consumer) (source : Source) : Program (Result (Option Entry)) :=
  call (.read c.stream c.group c.config.consumer source) Entry.firstOf?

/-- Acknowledges an entry. -/
def retire (c : Consumer) (id : String) : Program (Result Unit) := do
  return (← call (.ack c.stream c.group id) Datum.number).map fun _ => ()

/-- Adds a message to a stream and then acknowledges an entry. -/
def moveTo (c : Consumer) (stream : String) (m : Message) (id : String) :
    Program (Result Unit) := do
  match ← append stream m with
  | .ok () => c.retire id
  | .error e => return .error e

/-- The key of the stream of the dead letters. -/
def deadLetters (c : Consumer) : String := c.config.streamKey (c.topic ++ ".dlq")

/-- Reports an entry that is no message, and acknowledges it. -/
def deadLetter (c : Consumer) (e : Entry) (error : TransportError) : Program (Result Unit) := do
  let now ← ask .now
  c.moveTo c.deadLetters (e.report c.topic error now) e.id

/-- A message as it is handed out for the `count`-th time. -/
def delivery (c : Consumer) (e : Entry) (m : Message) (count : UInt32) : Delivery :=
  ⟨⟨c.topic, 0, e.id⟩, m, count⟩

/-! ## Receiving -/

/-- What a delivery that is waited for comes to. -/
abbrev Receipt := Result (Option Delivery)

/-- The consumer after a read, and what is received if that is settled. -/
abbrev Progress := Consumer × Option Receipt

/-- Goes on with the next entry, unless something has failed. -/
def goOnAfter (c : Consumer) : Result Unit → Progress
  | .ok () => (c, none)
  | .error e => (c, some (.error e))

/-- Reads the next of the entries that were handed out before. -/
def recover (c : Consumer) (after : String) : Program Progress := do
  match ← c.read (.pending after) with
  | .error e => return (c, some (.error e))
  | .ok none => return ({ c with cursor := none }, none)
  | .ok (some e) =>
    let c := { c with cursor := some e.id }
    if e.isTrimmed then return c.goOnAfter (← c.retire e.id)
    else
      match e.message with
      | .ok m => return (c, some (.ok (some (c.delivery e m 2))))
      | .error error => return c.goOnAfter (← c.deadLetter e error)

/-- Reads an entry that was handed to nobody. -/
def readFresh (c : Consumer) (wait : Span) : Program Receipt := do
  match ← c.read (.fresh wait) with
  | .error e => return .error e
  | .ok none => return .ok none
  | .ok (some e) =>
    match e.message with
    | .ok m => return .ok (some (c.delivery e m 1))
    | .error error => return (← c.deadLetter e error).map fun _ => none

/-- Reads one entry. -/
def advance (c : Consumer) (wait : Span) : Program Progress :=
  match c.cursor with
  | some after => c.recover after
  | none => do return (c, some (← c.readFresh wait))

/-- Reads entries until it is settled what is received; `reads` is how many may be read. -/
def advanceUpTo (wait : Span) : (reads : Nat) → Consumer → Program Progress
  | 0, c => return (c, none)
  | reads + 1, c => do
    match ← c.advance wait with
    | (c, none) => advanceUpTo wait reads c
    | settled => return settled

/-- Waits for a delivery. -/
def receive (c : Consumer) (wait : Span) (reads : Nat) : Program Progress := do
  if ← ask .isOpen then advanceUpTo wait reads c else return (c, some (.error .closed))

/-! ## Settling -/

/-- Acknowledges a delivery. -/
def ack (c : Consumer) (d : Delivery) : Program (Result Unit) :=
  whileOpen (c.retire d.position.offset)

/-- Hands a delivery back, to be delivered anew or not at all. -/
def reject (c : Consumer) (d : Delivery) (requeue : Bool) : Program (Result Unit) :=
  whileOpen <|
    if requeue then c.moveTo c.stream d.message d.position.offset else c.retire d.position.offset

end Consumer

end TaskQueue.Redis
