import TaskQueue.Text.Numeral
import TaskQueue.Text.Quoted
import TaskQueue.Text.Utf8

/-!
# Replies of a Redis server

A command is answered with a datum or with an error. What a client makes of a datum depends on what
it expects: a text, a number, a list, or a list of adjacent pairs that stands for a map.

Results:

* `Reply.list_eq_ok_iff`: a list is answered when all of its items are;
* `Datum.pairUp_flatMap`: adjacent pairs are found again.
-/

namespace TaskQueue.Redis

open Text

/-! ## Errors -/

/-- An error that a server answers with: a code in capitals and, after a space, some text. -/
structure ServerError where
  code : String
  detail : Option String
  deriving DecidableEq

namespace ServerError

/-- The code is what stands before the first space of the line. -/
def ofLine (line : String) : ServerError :=
  let cs := line.toList
  ⟨.ofList (cs.takeWhile (· != ' ')), ((cs.dropWhile (· != ' ')).tail?).map .ofList⟩

/-- Codes that are shown under a name. All others are shown as they are. -/
def names : List (String × String) := [
  ("ERR", "ResponseError"), ("EXECABORT", "ExecAbortError"), ("LOADING", "BusyLoadingError"),
  ("NOSCRIPT", "NoScriptError"), ("MOVED", "Moved"), ("ASK", "Ask"), ("TRYAGAIN", "TryAgain"),
  ("CLUSTERDOWN", "ClusterDown"), ("CROSSSLOT", "CrossSlot"), ("MASTERDOWN", "MasterDown"),
  ("READONLY", "ReadOnly"), ("NOTBUSY", "NotBusy")]

/-- The wording of an error. -/
def message (e : ServerError) : String :=
  match names.lookup e.code, e.detail with
  | some name, some detail => "An error was signalled by the server - " ++ name ++ ": " ++ detail
  | some name, none => "An error was signalled by the server- " ++ name
  | none, some detail => e.code ++ ": " ++ detail
  | none, none => e.code ++ ": Unknown extension error encountered"

end ServerError

/-! ## Data -/

/-- What a server answers with when nothing is wrong. -/
inductive Datum where
  | nil
  | int (i : Int)
  | bytes (bs : Bytes)
  | status (s : String)
  | list (ds : List Datum)

/-- The answer to a command. -/
abbrev Reply := Except ServerError Datum

/-- The reply that lists replies. An error anywhere is the reply. -/
def Reply.list (rs : List Reply) : Reply := do return .list (← rs.mapM id)

theorem mapM_id_eq_ok_iff {rs : List Reply} {ds : List Datum} :
    rs.mapM id = .ok ds ↔ rs = ds.map .ok := by
  induction rs generalizing ds with
  | nil => cases ds <;> simp [pure, Except.pure]
  | cons r rs ih =>
    cases r with
    | error e => cases ds <;> simp [bind, Except.bind]
    | ok d =>
      cases ds with
      | nil => cases h : rs.mapM id <;> simp [h, bind, Except.bind, pure, Except.pure]
      | cons b ds =>
        have := @ih ds
        cases h : rs.mapM id <;> simp_all [bind, Except.bind, pure, Except.pure]

theorem Reply.list_eq_ok_iff {rs : List Reply} {d : Datum} :
    Reply.list rs = .ok d ↔ ∃ ds, d = .list ds ∧ rs = ds.map .ok := by
  simp only [← mapM_id_eq_ok_iff]
  cases h : rs.mapM id <;> simp [Reply.list, h, bind, Except.bind, pure, Except.pure, eq_comm]

/-- What is shown of bytes that are no text. -/
def showBytes (bs : Bytes) : String :=
  "[" ++ ", ".intercalate (bs.map fun b => b.toNat.repr) ++ "]"

mutual

/-- How a message shows a datum. -/
def Datum.describe : Datum → String
  | .nil => "nil"
  | .int i => "int(" ++ toString i ++ ")"
  | .bytes bs =>
    match Utf8.decode? bs with
    | some s => "string-data('" ++ quote s ++ "')"
    | none => "binary-data(" ++ showBytes bs ++ ")"
  | .status s => if s = "OK" then "ok" else "status(" ++ quote s ++ ")"
  | .list ds => "bulk(" ++ ", ".intercalate (describeAll ds) ++ ")"

/-- How a message shows the items of a list. -/
def describeAll : List Datum → List String
  | [] => []
  | d :: ds => d.describe :: describeAll ds

end

/-! ## What is expected -/

/-- What a client wants from a datum. -/
inductive Expected where
  | text
  | numeral
  | number
  | list
  | map
  /-- A list whose shape a message names. -/
  | shaped (shape : String)
  deriving DecidableEq

/-- The complaint about a datum that is something else. -/
def Expected.complaint : Expected → String
  | text => "Response type not string compatible."
  | numeral => "Could not convert from string."
  | number => "Response type not convertible to numeric."
  | list => "Response type not vector compatible."
  | map => "Response type not hashmap compatible"
  | shaped shape => "Conversion to " ++ shape ++ " failed."

/-- Why a command has no result. -/
inductive ReplyError where
  | server (e : ServerError)
  | unexpected (wanted : Expected) (d : Datum)
  /-- The reply is a text that is not in UTF-8. -/
  | garbled
  /-- A number, or a text inside a list, is not in UTF-8. -/
  | garbledPart

/-- The wording of an error. -/
def ReplyError.message : ReplyError → String
  | server e => e.message
  | unexpected wanted d =>
    "Response was of incompatible type - TypeError: " ++ quote wanted.complaint ++
      " (response was " ++ d.describe ++ ")"
  | garbled => "Cannot convert from UTF-8- TypeError"
  | garbledPart => "Invalid UTF-8- TypeError"

namespace Datum

/-- Bytes in UTF-8, and a status, are a text. `e` is the error for other bytes. -/
def textOr (e : ReplyError) : Datum → Except ReplyError String
  | bytes bs => (Utf8.decode? bs).elim (.error e) .ok
  | status s => .ok s
  | d => .error (.unexpected .text d)

/-- The text that a reply is. -/
def text : Datum → Except ReplyError String := textOr .garbled

/-- The text that an item of a list is. -/
def partText : Datum → Except ReplyError String := textOr .garbledPart

/-- The number of an integer, or of a text that `read` reads. The status OK is none. -/
def numberBy (read : String → Option Int) : Datum → Except ReplyError Int
  | int i => .ok i
  | status s =>
    if s = "OK" then .error (.unexpected .number (status s))
    else (read s).elim (.error (.unexpected .numeral (status s))) .ok
  | bytes bs =>
    match Utf8.decode? bs with
    | none => .error .garbledPart
    | some s => (read s).elim (.error (.unexpected .numeral (bytes bs))) .ok
  | d => .error (.unexpected .number d)

/-- An integer of 64 bits. -/
def number : Datum → Except ReplyError Int := numberBy integer?

/-- The items of a list; nil has none. Of a text it is said that it has not the shape of the
list. -/
def items (shape : String) : Datum → Except ReplyError (List Datum)
  | nil => .ok []
  | list ds => .ok ds
  | bytes bs => .error (.unexpected (.shaped shape) (bytes bs))
  | d => .error (.unexpected .list d)

/-- Adjacent items two by two; none when one is left over. -/
def pairUp : List Datum → Option (List (Datum × Datum))
  | [] => some []
  | [_] => none
  | k :: v :: ds => (pairUp ds).map ((k, v) :: ·)

theorem pairUp_flatMap (ps : List (Datum × Datum)) :
    pairUp (ps.flatMap fun p => [p.1, p.2]) = some ps := by
  induction ps with
  | nil => rfl
  | cons p ps ih => simp [pairUp, ih]

/-- The pairs of a list that stands for a map; nil has none. -/
def pairs : Datum → Except ReplyError (List (Datum × Datum))
  | nil => .ok []
  | list ds =>
    match pairUp ds with
    | some ps => .ok ps
    | none => .error (.unexpected .map (list ds))
  | d => .error (.unexpected .map d)

/-- A byte: a text writes it as a number up to 255, an integer stands for its lowest eight bits. -/
def byte (d : Datum) : Except ReplyError UInt8 := do
  let i ← d.numberBy fun s => (natural? 255 s).map fun n => (n : Int)
  return .ofNat (i % 256).toNat

/-- The bytes of a payload: as they are, or one by one in a list. Nil is empty. -/
def payload? : Datum → Option Bytes
  | nil => some []
  | bytes bs => some bs
  | list ds => ds.mapM fun d => d.byte.toOption
  | _ => none

end Datum

end TaskQueue.Redis
