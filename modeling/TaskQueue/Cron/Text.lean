import TaskQueue.Cron.Basic
import TaskQueue.Text.Blank
import TaskQueue.Text.Numeral
import TaskQueue.Text.Quoted

/-!
# The text of a cron expression

`minute hour day month weekday`, separated by blanks; `*` leaves a field free. There are no lists,
ranges or steps. The number of fields is checked first, then the fields from left to right.
-/

namespace TaskQueue.Cron

open Text

/-- Which of the five fields. -/
inductive FieldName where
  | minute
  | hour
  | day
  | month
  | weekday
  deriving DecidableEq, Repr

namespace FieldName

/-- The name used in messages. -/
def text : FieldName → String
  | minute => "minute"
  | hour => "hour"
  | day => "day"
  | month => "month"
  | weekday => "weekday"

/-- The least value. -/
def least : FieldName → Nat
  | minute | hour | weekday => 0
  | day | month => 1

/-- The greatest value. -/
def greatest : FieldName → Nat
  | minute => 59
  | hour => 23
  | day => 31
  | month => 12
  | weekday => 6

end FieldName

/-- Why a text is no cron expression. -/
inductive ParseError where
  | fieldCount (n : Nat)
  | invalidValue (field : FieldName) (value : String)
  | outOfRange (field : FieldName) (value : Nat)
  deriving DecidableEq, Repr

/-- The wording of an error. -/
def ParseError.message : ParseError → String
  | fieldCount n => "expected 5 fields (minute hour day month weekday), got " ++ n.repr
  | invalidValue f v => "invalid " ++ f.text ++ " value: " ++ quote v
  | outOfRange f v =>
    f.text ++ " value " ++ v.repr ++ " out of range " ++ f.least.repr ++ "..=" ++ f.greatest.repr

namespace Field

/-- The text of a field. -/
def render : Field → String
  | any => "*"
  | exactly n => n.repr

/-- Reads a field: a star, or a number in the field's range. -/
def parse (name : FieldName) (token : String) : Except ParseError Field :=
  if token = "*" then .ok .any
  else
    match natural? maxNat32 token with
    | none => .error (.invalidValue name token)
    | some n =>
      if name.least ≤ n ∧ n ≤ name.greatest then .ok (.exactly n) else .error (.outOfRange name n)

/-- A fixed value lies in the range of its field. -/
def InRange (name : FieldName) : Field → Prop
  | any => True
  | exactly n => name.least ≤ n ∧ n ≤ name.greatest

end Field

namespace Expression

/-- The text of an expression. -/
def render (e : Expression) : String :=
  e.minute.render ++ " " ++ e.hour.render ++ " " ++ e.day.render ++ " " ++ e.month.render ++ " " ++
    e.weekday.render

/-- Reads an expression. -/
def parse (s : String) : Except ParseError Expression :=
  match (words s.toList).map String.ofList with
  | [minute, hour, day, month, weekday] => do
    let minute ← Field.parse .minute minute
    let hour ← Field.parse .hour hour
    let day ← Field.parse .day day
    let month ← Field.parse .month month
    let weekday ← Field.parse .weekday weekday
    return ⟨minute, hour, day, month, weekday⟩
  | tokens => .error (.fieldCount tokens.length)

/-- Every field of an expression lies in its range. -/
structure InRange (e : Expression) : Prop where
  minute : e.minute.InRange .minute
  hour : e.hour.InRange .hour
  day : e.day.InRange .day
  month : e.month.InRange .month
  weekday : e.weekday.InRange .weekday

end Expression

end TaskQueue.Cron
