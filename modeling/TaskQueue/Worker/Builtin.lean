import TaskQueue.Task.Handler
import TaskQueue.Task.Payload

/-!
# Built-in handlers

The tasks that every worker process can run.
-/

namespace TaskQueue.Worker.Builtin

/-- The name of the task that shows that a worker is alive. -/
def heartbeatTask : String := "heartbeat"

/-- The name of the task that repeats a text. -/
def echoTask : String := "echo"

/-- Shows that the worker is alive. -/
def heartbeat (_ : Payload) : HandlerEnd := .succeeded

/-- Repeats the text under `message`. -/
def echo (p : Payload) : HandlerEnd :=
  match p.getText? "message" with
  | some _ => .succeeded
  | none => .failed ["invalid input: echo needs a string `message` field"]

/-- All built-in handlers by their tasks. -/
def all : List (String × (Payload → HandlerEnd)) := [(heartbeatTask, heartbeat), (echoTask, echo)]

end TaskQueue.Worker.Builtin
