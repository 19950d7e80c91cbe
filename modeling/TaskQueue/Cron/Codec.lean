import TaskQueue.Cron.Text
import TaskQueue.Json.Codec

/-!
# Cron expressions in JSON

A free field is `"any"`, a fixed one an object with its value under `at`. Values are whole numbers
of 32 bits; whether they lie in the range of their field is not asked.
-/

namespace TaskQueue.Cron

open Json

instance : Codec Field where
  encode
    | .any => .text "any"
    | .exactly n => .object [("at", .int n)]
  decode v :=
    if v.choice? = some "any" then some .any
    else
      match v with
      | .object [("at", n)] => (natural? Text.maxNat32 n).map .exactly
      | _ => none

instance : Codec Expression where
  encode e :=
    .object [("minute", encode e.minute), ("hour", encode e.hour), ("day", encode e.day),
      ("month", encode e.month), ("weekday", encode e.weekday)]
  decode v := do
    let [minute, hour, day, month, weekday] ←
      v.fields? ["minute", "hour", "day", "month", "weekday"] 5 | none
    return ⟨← required minute, ← required hour, ← required day, ← required month,
      ← required weekday⟩

end TaskQueue.Cron
