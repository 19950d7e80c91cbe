import TaskQueue.Json.Codec

/-!
# Configuration of a scheduler
-/

namespace TaskQueue.Schedule

open Json Time

/-- How often a scheduler looks for due jobs. -/
structure Config where
  tickInterval : Span
  deriving DecidableEq

/-- Once a minute. -/
instance : Inhabited Config := ⟨⟨.ofSeconds 60⟩⟩

instance : Codec Config where
  encode c := .object [("tick_interval", encode c.tickInterval)]
  decode v := do
    let [tickInterval] ← v.fields? ["tick_interval"] 1 | none
    return ⟨← required tickInterval⟩

end TaskQueue.Schedule
