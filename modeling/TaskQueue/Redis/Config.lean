import TaskQueue.Json.Codec

/-!
# Configuration of a connection to Redis
-/

namespace TaskQueue.Redis

open Json

/-- Where the server is, and under which names streams are kept and read. -/
structure Config where
  url : String
  keyPrefix : String
  /-- The name of this consumer within every group. -/
  consumer : String
  deriving DecidableEq

namespace Config

/-- The standard names; the consumer is named after an identifier. -/
def ofUrl (url identifier : String) : Config := ⟨url, "taskforge", "consumer-" ++ identifier⟩

/-- The key of the stream that holds a topic. -/
def streamKey (c : Config) (topic : String) : String := c.keyPrefix ++ ":" ++ topic

end Config

instance : Codec Config where
  encode c :=
    .object [("url", encode c.url), ("key_prefix", encode c.keyPrefix),
      ("consumer_name", encode c.consumer)]
  decode v := do
    let [url, keyPrefix, consumer] ← v.fields? ["url", "key_prefix", "consumer_name"] 3 | none
    return ⟨← required url, ← required keyPrefix, ← required consumer⟩

end TaskQueue.Redis
