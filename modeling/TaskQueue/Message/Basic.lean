import TaskQueue.Json.Codec

/-!
# Messages and deliveries

A `Message` is a key, bytes and headers. A `Delivery` is a message as it is handed to a consumer:
with its `Position` in the broker and a count of how often it has been handed out.

Results:

* `get?_setHeader`: a header reads back, and the others are untouched.
-/

namespace TaskQueue

open Json Text

/-- Texts under names. -/
abbrev Headers := Dict String String

/-- A message as it is published. -/
structure Message where
  /-- The name of the task, for messages that carry a task. -/
  key : String
  payload : Bytes
  headers : Headers := ∅
  deriving DecidableEq, Inhabited

namespace Message

/-- The text of a header. -/
def header? (m : Message) (name : String) : Option String := m.headers.get? name

/-- Sets a header. -/
def setHeader (m : Message) (name value : String) : Message :=
  { m with headers := m.headers.insert name value }

/-- Sets headers, one after the other. -/
def setHeaders (m : Message) (hs : List (String × String)) : Message :=
  hs.foldl (fun m h => m.setHeader h.1 h.2) m

/-- Removes a header. -/
def dropHeader (m : Message) (name : String) : Message :=
  { m with headers := m.headers.erase name }

@[simp] theorem header?_setHeader (m : Message) (name value name' : String) :
    (m.setHeader name value).header? name' = if name' = name then some value else m.header? name' :=
  Dict.get?_insert m.headers name name' value

@[simp] theorem header?_dropHeader (m : Message) (name name' : String) :
    (m.dropHeader name).header? name' = if name' = name then none else m.header? name' :=
  Dict.get?_erase m.headers name name'

end Message

instance : Codec UInt8 where
  encode b := .int b.toNat
  decode v := (natural? 255 v).map UInt8.ofNat

/-- The payload is a list of bytes. -/
instance : Codec Message where
  encode m :=
    .object [("key", encode m.key), ("payload", encode m.payload), ("headers", encode m.headers)]
  decode v := do
    let [key, payload, headers] ← v.fields? ["key", "payload", "headers"] 2 | none
    return ⟨← required key, ← required payload, ← withDefault ∅ headers⟩

/-- Where a message lies in a broker. -/
structure Position where
  topic : String
  partition : UInt32
  offset : String
  deriving DecidableEq, Inhabited

namespace Position

/-- The one text of a position. -/
def render (p : Position) : String :=
  p.topic ++ ":" ++ p.partition.toNat.repr ++ ":" ++ p.offset

/-- Positions are ordered by topic, then partition, then offset. -/
def precedes (p q : Position) : Bool :=
  p.topic < q.topic ||
    (p.topic == q.topic && (p.partition < q.partition ||
      (p.partition == q.partition && (p.offset < q.offset || p.offset == q.offset))))

end Position

/-- A message that is handed to a consumer. -/
structure Delivery where
  position : Position
  message : Message
  /-- How often the message has been handed out, this time included. -/
  count : UInt32
  deriving DecidableEq, Inhabited

end TaskQueue
