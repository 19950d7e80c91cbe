import TaskQueue.Json.Codec
import TaskQueue.Json.Reader
import TaskQueue.Message.Basic
import TaskQueue.Message.Header
import TaskQueue.Message.Transport
import TaskQueue.Redis.Reply

/-!
# Entries of a stream

A message is kept as an entry with three fields: its key, its payload and its headers as JSON. An
entry that is no message is reported among the dead letters, with whatever it has.
-/

namespace TaskQueue.Redis

open Json Text Time

/-- An entry of a stream: named data under an id. -/
structure Entry where
  id : String
  fields : Dict String Datum

/-! ## The names of the fields -/

/-- The field that holds the key of a message. -/
def keyField : String := "key"

/-- The field that holds the payload of a message. -/
def payloadField : String := "payload"

/-- The field that holds the headers of a message. -/
def headersField : String := "headers"

/-- The fields that keep a message. -/
def messageFields (m : Message) : List (String × Bytes) := [
  (keyField, Utf8.encodeText m.key),
  (payloadField, m.payload),
  (headersField, Utf8.encodeText (Codec.print m.headers))]

namespace Entry

/-- The entry under an id that keeps a message. -/
def ofMessage (id : String) (m : Message) : Entry :=
  ⟨id, .ofList ((messageFields m).map fun (name, bs) => (name, .bytes bs))⟩

/-! ## From an entry to a message -/

/-- Whether nothing is left of an entry but its id. -/
def isTrimmed (e : Entry) : Bool := e.fields.size == 0

/-- The text of a field. -/
def text? (e : Entry) (name : String) : Option String :=
  (e.fields.get? name).bind fun d => d.text.toOption

/-- The payload, if it can be read. -/
def payload? (e : Entry) : Option Bytes := (e.fields.get? payloadField).bind Datum.payload?

/-- The headers that JSON text writes. -/
def readHeaders (raw : String) : Except TransportError Headers :=
  (Reader.textMap.readAll (Utf8.encodeText raw)).mapError fun e => .deserialization e.message

/-- The message that an entry keeps. It must have a key; without a payload it is empty, and without
headers it has none. -/
def message (e : Entry) : Except TransportError Message := do
  let some key := e.text? keyField
    | .error (.deserialization ("entry " ++ e.id ++ " has no key"))
  let headers ← match e.text? headersField with
    | some raw => readHeaders raw
    | none => .ok ∅
  return ⟨key, e.payload?.getD [], headers⟩

/-- The report of an entry that is no message. -/
def report (e : Entry) (topic : String) (error : TransportError) (now : Instant) : Message :=
  let m : Message := ⟨(e.text? keyField).getD "", e.payload?.getD [], ∅⟩
  let m := m.setHeaders [
    (Header.error, "undecodable entry: " ++ error.message),
    (Header.fromOffset, e.id),
    (Header.fromTopic, topic),
    (Header.deadLetteredAt, now.renderMillis)]
  match e.text? headersField with
  | some raw => m.setHeader Header.rawHeaders raw
  | none => m

/-! ## From a reply to an entry -/

/-- Reads the pairs of names and values that stand for a map. Of a name that is repeated the last
counts. -/
def dictOf {α : Type} (value : Datum → Except ReplyError α) (d : Datum) :
    Except ReplyError (Dict String α) := do
  return .ofList (← (← d.pairs).mapM fun p => do return (← p.1.partText, ← value p.2))

/-- How a message names the shape of a list. -/
def listShape (item : String) : String := "alloc::vec::Vec<" ++ item ++ ">"

/-- How a message names the shape of a map from texts. -/
def mapShape (value : String) : String :=
  "std::collections::hash::map::HashMap<alloc::string::String, " ++ value ++ ">"

/-- The shape of a list of entries. -/
def entriesShape : String := listShape (mapShape (mapShape "redis::types::Value"))

/-- The shape of a list of streams. -/
def streamsShape : String := listShape (mapShape entriesShape)

/-- Entries, each a pair of an id and fields. -/
def allOf (d : Datum) : Except ReplyError (List Entry) := do
  let rows ← (← d.items entriesShape).mapM (dictOf (dictOf .ok))
  return rows.flatMap fun row => row.entries.map fun (id, fields) => ⟨id, fields⟩

/-- Streams, each a pair of a key and entries. -/
def streamsOf (d : Datum) : Except ReplyError (List (String × List Entry)) := do
  return (← (← d.items streamsShape).mapM (dictOf allOf)).flatMap Dict.entries

/-- The first entry of the first stream. -/
def firstOf? (d : Datum) : Except ReplyError (Option Entry) := do
  return (← streamsOf d).head?.bind fun s => s.2.head?

end Entry

end TaskQueue.Redis
