import TaskQueue.Json.Shape

/-!
# Payloads

The data handed to a task: values under names. On the wire a payload is always a JSON object.

Out of scope: reading a payload into data of other shapes than `takeShape` has, and making one from
such data.
-/

namespace TaskQueue

open Json Text

/-- The data of a task. -/
structure Payload where
  members : Dict String Value
  deriving DecidableEq

/-- Why bytes or a value are no payload. -/
inductive PayloadError where
  /-- The bytes are no JSON document. -/
  | malformed (e : Json.ParseError)
  /-- The members have not the expected shape. -/
  | wrongShape (e : ShapeError)
  /-- The value is of another kind. -/
  | notObject (kind : String)
  deriving DecidableEq, Repr

/-- The wording of an error. -/
def PayloadError.message : PayloadError → String
  | malformed e => "payload is not valid json: " ++ e.message
  | wrongShape e => "payload is not valid json: " ++ e.message
  | notObject kind => "payload must be a json object, got " ++ kind

namespace Payload

instance : EmptyCollection Payload := ⟨⟨∅⟩⟩

instance : Inhabited Payload := ⟨∅⟩

/-- The value under a name. -/
def get? (p : Payload) (name : String) : Option Value := p.members.get? name

/-- The text under a name, if there is one. -/
def getText? (p : Payload) (name : String) : Option String := (p.get? name).bind Value.text?

/-- Puts a value under a name. -/
def insert (p : Payload) (name : String) (v : Value) : Payload := ⟨p.members.insert name v⟩

/-- The payload with the given members; of a repeated name the last value stays. -/
def ofList (es : List (String × Value)) : Payload := ⟨.ofList es⟩

/-- How many members there are. -/
def size (p : Payload) : Nat := p.members.size

/-- The names, in order. -/
def names (p : Payload) : List String := p.members.keys

/-- The payload as a value. -/
def toValue (p : Payload) : Value := .object p.members.entries

/-- The payload that a value is. -/
def ofValue : Value → Except PayloadError Payload
  | .object es => .ok (ofList es)
  | v => .error (.notObject v.kind)

/-- The bytes of a payload. -/
def toWire (p : Payload) : Bytes := p.toValue.toBytes

/-- Reads a payload from bytes. -/
def ofWire (bs : Bytes) : Except PayloadError Payload :=
  match Value.read bs with
  | .ok v => ofValue v
  | .error e => .error (.malformed e)

/-- The values under the asked names, each of its kind. -/
def takeShape (p : Payload) (asked : List (String × Kind)) : Except PayloadError (List Value) :=
  (Value.takeShape p.members.entries asked).mapError .wrongShape

@[simp] theorem get?_empty (name : String) : (∅ : Payload).get? name = none := rfl

@[simp] theorem get?_insert (p : Payload) (name name' : String) (v : Value) :
    (p.insert name v).get? name' = if name' = name then some v else p.get? name' :=
  Dict.get?_insert p.members name name' v

end Payload

end TaskQueue
