import TaskQueue.Broker.Group
import TaskQueue.Message.Basic
import TaskQueue.Message.Transport
import TaskQueue.Text.Numeral

/-!
# Brokers in memory

A broker keeps a log of messages for every topic, and for every group of consumers what it has got
to in a topic. Nothing is ever taken out of a log. Topics and groups come into being when they are
first used.

A call is a function of the state, so calls come one after the other. Out of scope: how a receiver
that finds nothing is woken, and a broker that a breakdown has left locked. Positions have no
partition but 0.
-/

namespace TaskQueue.Broker

open Text

/-- A log of messages and the groups that read it. -/
structure Topic where
  log : List Message
  groups : Dict String Group
  deriving DecidableEq

/-- No message, no group. -/
instance : EmptyCollection Topic := ⟨⟨[], ∅⟩⟩

instance : Inhabited Topic := ⟨∅⟩

namespace Topic

/-- Appends a message. -/
def append (t : Topic) (m : Message) : Topic := { t with log := t.log ++ [m] }

/-- Makes sure that a group is there. -/
def join (t : Topic) (group : String) : Topic :=
  { t with groups := t.groups.update group .fresh id }

end Topic

/-- Topics under their names. -/
structure State where
  topics : Dict String Topic
  deriving DecidableEq

/-- A broker without topics. -/
instance : EmptyCollection State := ⟨⟨∅⟩⟩

instance : Inhabited State := ⟨∅⟩

namespace State

/-! ## Looking -/

/-- A topic. -/
def topic (b : State) (name : String) : Topic := (b.topics.get? name).getD ∅

/-- All messages of a topic, in the order in which they were published. -/
def messages (b : State) (topic : String) : List Message := (b.topic topic).log

/-- What a group has got to, if it was ever joined. -/
def group? (b : State) (topic group : String) : Option Group := (b.topic topic).groups.get? group

/-- How many messages are handed out to a group and not settled. -/
def pending (b : State) (topic group : String) : Nat :=
  match b.group? topic group with
  | some g => g.pending.size
  | none => 0

/-- How many hand-outs to a group wait. -/
def backlog (b : State) (topic group : String) : Nat :=
  ((b.group? topic group).getD .fresh).backlog (b.messages topic).length

/-! ## Changing -/

/-- Appends a message to a topic. -/
def publish (b : State) (topic : String) (m : Message) : State :=
  ⟨b.topics.update topic ∅ (·.append m)⟩

/-- Makes sure that a group is there. -/
def subscribe (b : State) (topic group : String) : State :=
  ⟨b.topics.update topic ∅ (·.join group)⟩

/-- Changes what a group has got to, if the group is there. -/
def changeGroup (b : State) (topic group : String) (f : Group → Group) : State :=
  ⟨b.topics.modify topic fun t => { t with groups := t.groups.modify group f }⟩

/-- The position of an index. -/
def position (topic : String) (i : Nat) : Position := ⟨topic, 0, i.repr⟩

/-- Hands out the next message to a group. -/
def receive (b : State) (topic group : String) : Option Delivery × State :=
  let b := b.subscribe topic group
  let t := b.topic topic
  match ((t.groups.get? group).getD .fresh).take t.log.length with
  | none => (none, b)
  | some (i, g) =>
    match t.log[i]? with
    | none => (none, b)
    | some m => (some ⟨position topic i, m, g.handOuts i⟩, b.changeGroup topic group fun _ => g)

/-- The index that a position names. -/
def index? (p : Position) : Except TransportError Nat :=
  match natural? maxNat64 p.offset with
  | some i => .ok i
  | none => .error (.deserialization ("not an in-memory offset: " ++ p.render))

/-- Settles a delivery. -/
def ack (b : State) (topic group : String) (p : Position) : Except TransportError State := do
  let i ← index? p
  return b.changeGroup topic group (·.settle i)

/-- Gives a delivery back, or drops it. -/
def reject (b : State) (topic group : String) (p : Position) (requeue : Bool) :
    Except TransportError State := do
  let i ← index? p
  return b.changeGroup topic group fun g => if requeue then g.requeue i else g.settle i

end State

end TaskQueue.Broker
