import TaskQueue.Proofs.Json.Lawful
import TaskQueue.Task.Trail

/-!
# Trails that read back

The text of a trail tells everything about it, whatever texts are in it and whenever its marks were
made.

Results:

* `Trail.parse_render`: **a trail is parsed from its own text.**
-/

namespace TaskQueue

open Json Text

instance : LawfulCodec Stage where
  kept s := .text s.name
  decode_encode s := by cases s <;> decide

instance : LawfulCodec Mark where
  kept m := .object (by simp [kept])
  decode_encode m := by
    let names := ["step", "at"]
    let vs := [encode m.stage, encode m.instant]
    have hfields : Value.fields? names 2 (.object (names.zip vs)) = some (vs.map some) :=
      Value.fields?_zip (by decide) rfl 2
    unfold decode instCodecMark
    simp only [names, vs, List.zip_cons_cons, List.zip_nil_right, List.map_cons,
      List.map_nil] at hfields
    simp [hfields]

instance : LawfulCodec Trail where
  kept t := .object (by simp [kept])
  decode_encode t := by
    let names := ["retry_count", "original_topic", "original_partition", "original_offset",
      "first_seen", "last_error", "correlation_id", "steps"]
    let vs := [encode t.failures, encode t.topic, encode t.partition, encode t.offset,
      encode t.firstSeen, encode t.lastError, encode t.correlationId, encode t.marks]
    have hfields : Value.fields? names 8 (.object (names.zip vs)) = some (vs.map some) :=
      Value.fields?_zip (by decide) rfl 8
    unfold decode instCodecTrail
    simp only [names, vs, List.zip_cons_cons, List.zip_nil_right, List.map_cons,
      List.map_nil] at hfields
    simp [hfields]

/-- **A trail is parsed from its own text.** -/
theorem Trail.parse_render (t : Trail) : Codec.parse (Utf8.encodeText t.render) = some t :=
  parse_print t

end TaskQueue
