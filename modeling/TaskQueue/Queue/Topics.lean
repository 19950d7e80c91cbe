import TaskQueue.Json.Codec

/-!
# The topics of a queue

A queue has a topic for the tasks that are ready, one for those that wait until they are due, and
one for those that were given up.
-/

namespace TaskQueue

open Json

/-- The three topics of a queue. -/
structure Topics where
  active : String
  delayed : String
  deadLetter : String
  deriving DecidableEq

namespace Topics

/-- The topics of a queue by its name. -/
def ofQueue (queue : String) : Topics := ⟨queue, queue ++ ".delayed", queue ++ ".dlq"⟩

/-- The name of a queue that is given none. -/
def standardQueue : String := "tasks"

instance : Inhabited Topics := ⟨ofQueue standardQueue⟩

end Topics

instance : Codec Topics where
  encode t :=
    .object [("active", encode t.active), ("delayed", encode t.delayed),
      ("dead_letter", encode t.deadLetter)]
  decode v := do
    let [active, delayed, deadLetter] ← v.fields? ["active", "delayed", "dead_letter"] 3 | none
    return ⟨← required active, ← required delayed, ← required deadLetter⟩

end TaskQueue
