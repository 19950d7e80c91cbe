import TaskQueue.Queue.Topics
import TaskQueue.Text.Blank
import TaskQueue.Text.Quoted
import TaskQueue.Worker.Config

/-!
# Settings of a worker process

Settings are texts under the names of variables. Those that are not set take defaults. Texts must
not be blank, and intervals must not be zero; blanks around a setting do not count. The variables
are checked in the order of `Variable`.

Out of scope: variables of other programs, and settings that change while the process runs.
-/

namespace TaskQueue.Worker

open Time Text

/-- The variables that hold settings, in the order in which they are checked. -/
inductive Variable where
  | maxRetries
  | redisUrl
  | queue
  | group
  | consumer
  | promoterInterval
  | schedulerInterval
  deriving DecidableEq, Repr

/-- The name of a variable. -/
def Variable.name : Variable → String
  | maxRetries => "TASKFORGE_MAX_RETRIES"
  | redisUrl => "TASKFORGE_REDIS_URL"
  | queue => "TASKFORGE_QUEUE"
  | group => "TASKFORGE_GROUP"
  | consumer => "TASKFORGE_CONSUMER"
  | promoterInterval => "TASKFORGE_PROMOTER_INTERVAL_MS"
  | schedulerInterval => "TASKFORGE_SCHEDULER_INTERVAL_MS"

/-- What is wrong with a setting. -/
inductive SettingsError where
  | notANumber (v : Variable) (value : String)
  | empty (v : Variable)
  | zero (v : Variable)
  deriving DecidableEq, Repr

/-- The wording of an error. -/
def SettingsError.message : SettingsError → String
  | notANumber v value => v.name ++ " must be a non-negative integer, got " ++ quote value
  | empty v => v.name ++ " must not be empty"
  | zero v => v.name ++ " must be greater than zero"

/-- What a worker process is told. -/
structure Settings where
  /-- Where the broker is; none for a broker within the process. -/
  redisUrl : Option String
  queue : String
  group : String
  consumer : Option String
  maxRetries : UInt32
  promoterInterval : Span
  schedulerInterval : Span
  deriving DecidableEq

namespace Settings

/-- The defaults. -/
instance : Inhabited Settings :=
  ⟨⟨none, Topics.standardQueue, Config.standardGroup, none, 3, .ofSeconds 5, .ofSeconds 60⟩⟩

/-- Where settings are looked up, by the names of their variables. -/
abbrev Source := String → Option String

/-- A text, if it is set. -/
def readText (source : Source) (v : Variable) : Except SettingsError (Option String) :=
  match source v.name with
  | none => .ok none
  | some s => if isAllBlank s then .error (.empty v) else .ok (some (trim s))

/-- A number of 64 bits, if it is set. -/
def readNumber (source : Source) (v : Variable) : Except SettingsError (Option Nat) :=
  match source v.name with
  | none => .ok none
  | some s =>
    match natural? maxNat64 (trim s) with
    | some n => .ok (some n)
    | none => .error (.notANumber v s)

/-- A number of 32 bits, if it is set. -/
def readCount (source : Source) (v : Variable) : Except SettingsError (Option UInt32) := do
  match ← readNumber source v with
  | none => return none
  | some n => if n ≤ maxNat32 then return some (.ofNat n) else throw (.notANumber v n.repr)

/-- A number of milliseconds, if it is set. -/
def readInterval (source : Source) (v : Variable) : Except SettingsError (Option Span) := do
  match ← readNumber source v with
  | none => return none
  | some 0 => throw (.zero v)
  | some n => return some (.ofMillis n)

/-- Reads all settings; the first variable that is wrong is reported. -/
def read (source : Source) : Except SettingsError Settings := do
  let d : Settings := default
  let maxRetries ← readCount source .maxRetries
  let redisUrl ← readText source .redisUrl
  let queue ← readText source .queue
  let group ← readText source .group
  let consumer ← readText source .consumer
  let promoterInterval ← readInterval source .promoterInterval
  let schedulerInterval ← readInterval source .schedulerInterval
  return {
    redisUrl, consumer
    queue := queue.getD d.queue
    group := group.getD d.group
    maxRetries := maxRetries.getD d.maxRetries
    promoterInterval := promoterInterval.getD d.promoterInterval
    schedulerInterval := schedulerInterval.getD d.schedulerInterval }

end Settings

end TaskQueue.Worker
