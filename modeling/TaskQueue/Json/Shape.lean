import TaskQueue.Json.Reader

/-!
# Objects of a known shape

Taking the members of an object that are asked for, each of an expected kind. The members are looked
at in the order of the object; what is missing is found last, in the order in which it was asked
for. -/

namespace TaskQueue.Json

/-- What a member is expected to be. -/
inductive Kind where
  /-- A whole number of 64 bits. -/
  | natural
  | text
  deriving DecidableEq, Repr

/-- The name of a kind in messages. -/
def Kind.name : Kind → String
  | natural => "u64"
  | text => "a string"

/-- Why an object has not the expected shape. -/
inductive ShapeError where
  | missingField (name : String)
  | invalidType (found expected : String)
  | invalidValue (found expected : String)
  deriving DecidableEq, Repr

/-- The wording of an error. -/
def ShapeError.message : ShapeError → String
  | missingField name => "missing field `" ++ name ++ "`"
  | invalidType found expected => "invalid type: " ++ found ++ ", expected " ++ expected
  | invalidValue found expected => "invalid value: " ++ found ++ ", expected " ++ expected

/-- A value is of a kind. A negative number is a number of the wrong value. -/
def Kind.check : Kind → Value → Except ShapeError Unit
  | text, .text _ => .ok ()
  | natural, .int i =>
    if 0 ≤ i then .ok () else .error (.invalidValue (Reader.describe (.int i)) natural.name)
  | k, v => .error (.invalidType (Reader.describe v) k.name)

namespace Value

/-- The values under the asked names, each of its kind. -/
def takeShape (es : List (String × Value)) (asked : List (String × Kind)) :
    Except ShapeError (List Value) := do
  for (name, v) in es do
    if let some kind := asked.lookup name then kind.check v
  asked.mapM fun (name, _) =>
    match es.lookup name with
    | some v => .ok v
    | none => .error (.missingField name)

end Value

end TaskQueue.Json
