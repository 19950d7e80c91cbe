import TaskQueue.Proofs.Dict
import TaskQueue.Proofs.Message.Copies
import TaskQueue.Redis.Entry

/-!
# Entries, as they are sent and as they are read

Results:

* `firstOf?_reply`: an entry that a server sends is read back;
* `message_eq_ok_iff`: which message an entry is;
* `message_of_isTrimmed`: an entry without fields is none;
* `key_report`, `payload_report`, `rawHeaders_report`: what the report of an entry repeats.
-/

namespace TaskQueue.Redis.Entry

open Json Text Time

/-! ## Entries in a reply -/

/-- The fields of an entry, as a server sends them: names and values in turn. -/
def fieldData (fields : Dict String Datum) : Datum :=
  .list ((fields.entries.map fun f => (.bytes (Utf8.encodeText f.1), f.2)).flatMap fun p =>
    [p.1, p.2])

/-- The reply to a read that finds an entry. -/
def reply (stream : String) (e : Entry) : Datum :=
  .list [.list [.bytes (Utf8.encodeText stream),
    .list [.list [.bytes (Utf8.encodeText e.id), fieldData e.fields]]]]

theorem partText_bytes (s : String) : (Datum.bytes (Utf8.encodeText s)).partText = .ok s := by
  change (Utf8.decode? (Utf8.encodeText s)).elim (.error ReplyError.garbledPart) Except.ok = _
  rw [Utf8.decode?_encode]
  rfl

theorem ok_bind {ε α β : Type} (a : α) (f : α → Except ε β) : (Except.ok a >>= f) = f a := rfl

/-- A map with one name. -/
theorem dictOf_single {α : Type} {value : Datum → Except ReplyError α} {d : Datum} {a : α}
    (name : String) (h : value d = .ok a) :
    dictOf value (.list [.bytes (Utf8.encodeText name), d]) = .ok (.ofList [(name, a)]) := by
  have hpairs : (Datum.list [.bytes (Utf8.encodeText name), d]).pairs =
    .ok [(.bytes (Utf8.encodeText name), d)] := rfl
  unfold dictOf
  rw [hpairs, ok_bind, List.mapM_cons, partText_bytes, ok_bind, h]
  rfl

theorem dictOf_fieldData (fields : Dict String Datum) :
    dictOf .ok (fieldData fields) = .ok fields := by
  have hpairs : (fieldData fields).pairs =
      .ok (fields.entries.map fun f => (.bytes (Utf8.encodeText f.1), f.2)) := by
    unfold fieldData Datum.pairs
    dsimp only
    rw [Datum.pairUp_flatMap]
  have hread (es : Entries String Datum) :
      (es.map fun f => ((.bytes (Utf8.encodeText f.1), f.2) : Datum × Datum)).mapM
        (fun p => do return (← p.1.partText, ← (.ok p.2 : Except ReplyError Datum))) = .ok es := by
    induction es with
    | nil => rfl
    | cons f es ih =>
      rw [List.map_cons, List.mapM_cons, ih, partText_bytes]
      rfl
  unfold dictOf
  rw [hpairs, ok_bind, hread]
  exact congrArg Except.ok (Dict.ofList_entries fields)

/-- **An entry that a server sends is read back.** -/
theorem firstOf?_reply (stream : String) (e : Entry) :
    firstOf? (e.reply stream) = .ok (some e) := by
  have hrow := dictOf_single e.id (dictOf_fieldData e.fields)
  have hall : allOf (.list [.list [.bytes (Utf8.encodeText e.id), fieldData e.fields]]) =
      .ok [e] := by
    unfold allOf Datum.items
    rw [ok_bind, List.mapM_cons, hrow]
    rfl
  have hstream := dictOf_single stream hall
  unfold firstOf? streamsOf reply Datum.items
  rw [ok_bind, List.mapM_cons, hstream]
  rfl

/-! ## The message that an entry is -/

variable {e : Entry} {m : Message} {name : String} {d : Datum}

theorem text?_eq {name : String} (h : e.fields.get? name = some d) :
    e.text? name = d.text.toOption := by
  unfold text?
  rw [h]
  rfl

theorem text?_eq_none {name : String} (h : e.fields.get? name = none) : e.text? name = none := by
  unfold text?
  rw [h]
  rfl

theorem payload?_eq (e : Entry) :
    e.payload? = (e.fields.get? payloadField).bind Datum.payload? := rfl

theorem text?_eq_some_iff {s : String} :
    e.text? name = some s ↔ ∃ d, e.fields.get? name = some d ∧ d.text = .ok s := by
  unfold text?
  rw [Option.bind_eq_some_iff]
  refine exists_congr fun d => and_congr_right fun _ => ?_
  cases d.text with
  | ok s' => exact ⟨fun h => congrArg _ (Option.some.inj h), fun h => congrArg _ (Except.ok.inj h)⟩
  | error e => exact ⟨nofun, nofun⟩

/-- The headers of the message that an entry is. -/
def headers (e : Entry) : Except TransportError Headers :=
  match e.text? headersField with
  | some raw => readHeaders raw
  | none => .ok ∅

/-- **Which message an entry is.** -/
theorem message_eq_ok_iff :
    e.message = .ok m ↔
      e.text? keyField = some m.key ∧ m.payload = e.payload?.getD [] ∧
        e.headers = .ok m.headers := by
  have hmessage : e.message = match e.text? keyField, e.headers with
      | none, _ => .error (.deserialization ("entry " ++ e.id ++ " has no key"))
      | some _, .error error => .error error
      | some key, .ok hs => .ok ⟨key, e.payload?.getD [], hs⟩ := by
    unfold message headers
    cases e.text? keyField with
    | none => rfl
    | some key =>
      cases e.text? headersField with
      | none => rfl
      | some raw =>
        show Bind.bind (readHeaders raw) _ = match some key, readHeaders raw with
          | none, _ => _
          | some _, .error error => _
          | some key, .ok hs => _
        cases readHeaders raw with
        | error error => rfl
        | ok hs => rfl
  rw [hmessage]
  cases e.text? keyField with
  | none => exact ⟨nofun, fun h => nomatch h.1⟩
  | some key =>
    cases e.headers with
    | error error => exact ⟨nofun, fun h => nomatch h.2.2⟩
    | ok hs =>
      constructor
      · intro h
        obtain rfl := Except.ok.inj h
        exact ⟨rfl, rfl, rfl⟩
      · rintro ⟨hkey, hpayload, hheaders⟩
        obtain ⟨k, p, hs'⟩ := m
        rw [Option.some.inj hkey, Except.ok.inj hheaders, ← hpayload]

/-- An entry without fields has none of the three. -/
theorem get?_of_isTrimmed (h : e.isTrimmed = true) (name : String) : e.fields.get? name = none := by
  obtain ⟨id, ⟨entries, sorted⟩⟩ := e
  have hnil : entries = [] := List.eq_nil_of_length_eq_zero (beq_iff_eq.mp h)
  subst hnil
  rfl

/-- An entry without fields is no message. -/
theorem message_of_isTrimmed (h : e.isTrimmed = true) : ∃ error, e.message = .error error := by
  cases hm : e.message with
  | error error => exact ⟨error, rfl⟩
  | ok m =>
    obtain ⟨d, hd, -⟩ := text?_eq_some_iff.mp (message_eq_ok_iff.mp hm).1
    rw [get?_of_isTrimmed h] at hd
    cases hd

/-! ## Reports -/

@[simp] theorem key_report (e : Entry) (topic : String) (error : TransportError) (now : Instant) :
    (e.report topic error now).key = (e.text? keyField).getD "" := by
  unfold report
  cases e.text? headersField with
  | none => rfl
  | some raw => rfl

@[simp] theorem payload_report (e : Entry) (topic : String) (error : TransportError)
    (now : Instant) : (e.report topic error now).payload = e.payload?.getD [] := by
  unfold report
  cases e.text? headersField with
  | none => rfl
  | some raw => rfl

/-- The headers of an entry that is no message are kept as they are. -/
@[simp] theorem rawHeaders_report (e : Entry) (topic : String) (error : TransportError)
    (now : Instant) :
    (e.report topic error now).header? Header.rawHeaders = e.text? headersField := by
  unfold report
  cases e.text? headersField with
  | none =>
    -- no other header of a report has that name
    dsimp only
    rw [Message.header?_setHeaders]
    rfl
  | some raw => simp

end TaskQueue.Redis.Entry
