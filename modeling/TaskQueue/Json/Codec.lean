import TaskQueue.Json.Reader
import TaskQueue.Time.Rfc3339

/-!
# Typed data in JSON

How data of fixed shapes is written as JSON values and read from outlines of documents.

A record is an object with one member per field; members with other names are passed over, and a
field must not be given twice. It may also be written as the list of its fields in order, of which
only fields with a default may be missing, at the end. A choice without data is its name, or an
object with that name and `null`.
-/

namespace TaskQueue.Json

open Time Number

/-- Data that is written as JSON and read from it. -/
class Codec (α : Type) where
  encode : α → Value
  decode : Value → Option α

export Codec (encode decode)

namespace Codec

variable {α : Type} [Codec α]

/-- The text of data. -/
def print (a : α) : String := (encode a).render

/-- Reads data from the bytes of a document. -/
def parse (input : Text.Bytes) : Option α :=
  match Value.outline input with
  | .ok v => decode v
  | .error _ => none

end Codec

/-! ## Records -/

/-- The fields of a record as a document gives them, in the order of their names; a field that is
not given is none. -/
abbrev Fields := List (Option Value)

namespace Value

/-- The value given under a name; the outer option is none when the name is given twice. -/
def member? (name : String) (es : List (String × Value)) : Option (Option Value) :=
  match es.filter fun e => e.1 = name with
  | [] => some none
  | [e] => some (some e.2)
  | _ => none

/-- The fields of a record with the given names. Written as a list it must have at least `least`
elements. -/
def fields? (names : List String) (least : Nat) : Value → Option Fields
  | object es => names.mapM fun n => member? n es
  | list xs =>
    if least ≤ xs.length ∧ xs.length ≤ names.length then
      some (xs.map some ++ List.replicate (names.length - xs.length) none)
    else none
  | _ => none

/-- The name of a choice without data. -/
def choice? : Value → Option String
  | text s => some s
  | object [(s, null)] => some s
  | _ => none

end Value

/-- A field that has to be given. -/
def required {α : Type} [Codec α] (field : Option Value) : Option α := field.bind decode

/-- A field that takes a default when it is not given. -/
def withDefault {α : Type} [Codec α] (default : α) : Option Value → Option α
  | none => some default
  | some v => decode v

/-! ## Plain data -/

instance : Codec String where
  encode s := .text s
  decode v := v.text?

/-- A whole number up to a bound. -/
def natural? (bound : Nat) : Value → Option Nat
  | .int i => if 0 ≤ i ∧ i ≤ bound then some i.toNat else none
  | _ => none

/-- Whole numbers of 32 bits. -/
instance : Codec UInt32 where
  encode n := .int n.toNat
  decode v := (natural? Text.maxNat32 v).map UInt32.ofNat

instance : Codec Double where
  encode x := .double x
  decode
    | .double x => some x
    | .int i => Double.ofRatio? (decide (i < 0)) i.natAbs 1
    | _ => none

instance : Codec Bool where
  encode b := .bool b
  decode
    | .bool b => some b
    | _ => none

instance {α : Type} [Codec α] : Codec (List α) where
  encode xs := .list (xs.map encode)
  decode
    | .list xs => xs.mapM decode
    | _ => none

instance {α : Type} [Codec α] : Codec (Option α) where
  encode
    | none => .null
    | some a => encode a
  decode
    | .null => some none
    | v => (decode v).map some

/-- Texts under texts; of a repeated name the last text stays. -/
instance : Codec (Dict String String) where
  encode d := .object (d.entries.map fun e => (e.1, .text e.2))
  decode
    | .object es =>
      (es.mapM fun (e : String × Value) => e.2.text?.map fun v => (e.1, v)).map Dict.ofList
    | _ => none

/-! ## Time -/

/-- Seconds and nanoseconds. Nanoseconds beyond a second are carried over, and no other member is
passed over. -/
instance : Codec Span where
  encode s := .object [("secs", .int s.seconds), ("nanos", .int s.subsecNanos)]
  decode v := do
    if let .object es := v then
      guard (es.all fun e => e.1 = "secs" ∨ e.1 = "nanos")
    let [secs, nanos] ← v.fields? ["secs", "nanos"] 2 | none
    let secs ← secs.bind (natural? Text.maxNat64)
    let nanos ← nanos.bind (natural? Text.maxNat32)
    Span.of? secs nanos

/-- Timestamps are written in their exact form and read in the loose one. -/
instance : Codec Instant where
  encode t := .text t.render
  decode v := v.text?.bind Instant.readLoose?

end TaskQueue.Json
