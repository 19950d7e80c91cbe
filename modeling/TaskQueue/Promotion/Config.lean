import TaskQueue.Queue.Topics

/-!
# Configuration of a promoter
-/

namespace TaskQueue.Promotion

open Json Time

/-- What a promoter moves and how often it looks. -/
structure Config where
  topics : Topics
  /-- The consumer group on the topic of waiting messages. -/
  group : String
  /-- No wait is longer. -/
  pollInterval : Span
  deriving DecidableEq

/-- Every five seconds, in the promoters' own group. -/
def Config.ofTopics (topics : Topics) : Config := ⟨topics, "taskforge-promoter", .ofSeconds 5⟩

instance : Inhabited Config := ⟨.ofTopics default⟩

instance : Codec Config where
  encode c :=
    .object [("topics", encode c.topics), ("group", encode c.group),
      ("poll_interval", encode c.pollInterval)]
  decode v := do
    let [topics, group, pollInterval] ← v.fields? ["topics", "group", "poll_interval"] 3 | none
    return ⟨← required topics, ← required group, ← required pollInterval⟩

end TaskQueue.Promotion
