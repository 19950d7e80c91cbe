import TaskQueue.Proofs.Client.Enqueue
import TaskQueue.Proofs.Json.Canonical
import TaskQueue.Proofs.Worker.Resolution

/-!
# Payloads on the wire

A payload is written as a JSON object. It is read back as itself as long as the reader goes as deep
as its values are nested, the object of the payload included; what is nested deeper is malformed. So
a worker gets the payloads that a client has put on a queue, or refuses them as malformed. What was
once read is never too deep, and stays the same when it is written and read again.

Of doubles only so much is asked that those in the payload read back (`ReadsBack`).

Results:

* `ofWire_eq_ok_iff`: a payload is read just when its value is;
* `ofWire_toWire`, `ofWire_toWire_of_deep`: what is read of a payload that was written;
* `wire_format`: the same from a client to a worker, and for payloads that were read before.
-/

namespace TaskQueue

open Json Number Text Time Engine Retry Script

namespace Payload

variable {p : Payload} {bs : Bytes} {v : Value}

/-! ## Writing and reading -/

theorem ofValue_toValue (p : Payload) : ofValue p.toValue = .ok p := by
  have hmembers : (⟨.ofList p.members.entries⟩ : Payload) = p :=
    congrArg Payload.mk (Dict.ofList_entries p.members)
  exact congrArg Except.ok hmembers

theorem toValue_of_ofValue (hv : v.Canonical) (h : ofValue v = .ok p) : p.toValue = v := by
  cases v with
  | object es =>
    obtain rfl := Except.ok.inj h
    have hentries : (Dict.ofList es).entries = es := by
      rw [Dict.entries_ofList, Entries.collect_of_sorted hv.1]
    exact congrArg Value.object hentries
  | _ => cases h

/-- **A payload is read from bytes** just when its value is. -/
theorem ofWire_eq_ok_iff : ofWire bs = .ok p ↔ Value.read bs = .ok p.toValue := by
  unfold ofWire
  constructor
  · intro h
    cases hv : Value.read bs with
    | error e =>
      rw [hv] at h
      cases h
    | ok v =>
      rw [hv] at h
      rw [toValue_of_ofValue (Value.sound_of_read hv).canonical h]
  · intro h
    rw [h]
    exact ofValue_toValue p

/-- **A payload is read back**, unless it is nested too deep. -/
theorem ofWire_toWire (canonical : p.toValue.Canonical)
    (doubles : ∀ x, p.toValue.HasDouble x → Reader.ReadsBack x)
    (depth : p.toValue.depth ≤ Value.maxDepth) :
    ofWire p.toWire = .ok p :=
  ofWire_eq_ok_iff.mpr (Value.read_toBytes canonical doubles depth)

/-- The document is nested too deep, and the error says so. -/
structure TooDeep (e : PayloadError) : Prop where
  fault : ∃ line column, e = .malformed ⟨.tooDeep, line, column⟩
  wording : ∃ place,
    e.message = "payload is not valid json: " ++ ("recursion limit exceeded" ++ place)

theorem tooDeep_malformed {e : ParseError} (h : e.fault = .tooDeep) : TooDeep (.malformed e) := by
  have hfault : e.fault.message = "recursion limit exceeded" := by
    rw [h]
    rfl
  have wording : e.message = "recursion limit exceeded" ++
      (" at line " ++ (e.line.repr ++ (" column " ++ e.column.repr))) := by
    rw [ParseError.message, hfault]
    simp only [String.append_assoc]
  obtain ⟨fault, line, column⟩ := e
  obtain rfl : fault = .tooDeep := h
  exact ⟨⟨line, column, rfl⟩, _, congrArg ("payload is not valid json: " ++ ·) wording⟩

/-- **A payload that is nested too deep is malformed.** -/
theorem ofWire_toWire_of_deep (canonical : p.toValue.Canonical)
    (doubles : ∀ x, p.toValue.HasDouble x → Reader.ReadsBack x)
    (depth : Value.maxDepth < p.toValue.depth) : ∃ e, ofWire p.toWire = .error e ∧ TooDeep e := by
  obtain ⟨e, hread, he⟩ := Value.read_toBytes_of_deep canonical doubles depth
  refine ⟨.malformed e, ?_, tooDeep_malformed he⟩
  unfold ofWire
  rw [toWire, hread]

/-- A payload that was read is read again once it is written. -/
theorem ofWire_again (h : ofWire bs = .ok p)
    (doubles : ∀ x, p.toValue.HasDouble x → Reader.ReadsBack x) : ofWire p.toWire = .ok p :=
  ofWire_eq_ok_iff.mpr (Value.read_again (ofWire_eq_ok_iff.mp h) doubles)

end Payload

/-! ## From a client to a worker -/

namespace Client

variable {ν : Type} {topics : Topics} {task : String} {p : Payload} {es : Exchanges ν}
  {r : Except ClientError String} {m : Message} {topic : String} {x : Except TransportError Unit}

/-- A task that is put on a queue is published with its payload. -/
theorem payload_enqueue (h : (enqueue topics task p).Ends es r)
    (he : ⟨.publish topic m, x⟩ ∈ es.transport) : m.payload = p.toWire := by
  cases enqueue_ends_iff.mp h with
  | unnamed => cases he
  | sent now x named =>
    cases List.mem_singleton.mp he
    exact ((bears_taskMessage named).prompt now).payload

/-- So is a task that is delayed. -/
theorem payload_enqueueDelayed {delay : Span} (h : (enqueueDelayed topics task p delay).Ends es r)
    (he : ⟨.publish topic m, x⟩ ∈ es.transport) : m.payload = p.toWire := by
  cases hz : delay.isZero with
  | true => exact payload_enqueue (enqueueDelayed_of_isZero hz ▸ h) he
  | false =>
    cases (enqueueDelayed_ends_iff hz).mp h with
    | never => cases he
    | unnamed => cases he
    | sent x moved named =>
      cases List.mem_singleton.mp he
      exact ((bears_taskMessage named).delayed _ _).payload

/-- A client publishes the message for a task with this payload. -/
inductive Sends (ν : Type) (topics : Topics) (task : String) (p : Payload) (m : Message) : Prop
  | atOnce {es : Exchanges ν} {r : Except ClientError String} {topic : String}
      {x : Except TransportError Unit} (run : (enqueue topics task p).Ends es r)
      (sent : ⟨.publish topic m, x⟩ ∈ es.transport) : Sends ν topics task p m
  | delayed {delay : Span} {es : Exchanges ν} {r : Except ClientError String} {topic : String}
      {x : Except TransportError Unit} (run : (enqueueDelayed topics task p delay).Ends es r)
      (sent : ⟨.publish topic m, x⟩ ∈ es.transport) : Sends ν topics task p m

theorem Sends.payload (h : Sends ν topics task p m) : m.payload = p.toWire := by
  cases h with
  | atOnce run sent => exact payload_enqueue run sent
  | delayed run sent => exact payload_enqueueDelayed run sent

end Client

namespace Worker

variable {ν : Type} {d : Delivery} {es : Exchanges ν} {p : Payload}

/-- The worker has read the payload: it looked the task up, and if there is a handler it got the
payload. -/
def Taken (p : Payload) (d : Delivery) (es : Exchanges ν) : Prop :=
  ∃ handled, Exchanges.lookups es = [(d.message.key, handled)] ∧
    es.runs.map TaskRun.payload = if handled then [p] else []

/-- The worker has read no payload: it looked no task up and ran no handler, and published the
message among the dead letters for the reason of the error. -/
structure Refused (c : Config) (e : PayloadError) (es : Exchanges ν) : Prop where
  unasked : Exchanges.lookups es = []
  idle : es.runs = []
  deadLetter : ∃ copy x, es.transport.head? = some ⟨.publish c.topics.deadLetter copy, x⟩ ∧
    copy.header? Header.error = some ("malformed payload: " ++ e.message)

theorem LookedUp.taken (h : LookedUp d es) (hread : Payload.ofWire d.message.payload = .ok p) :
    Taken p d es := by
  cases h with
  | unread unread => 
    rw [hread] at unread
    cases unread
  | unhandled read asked idle => exact ⟨false, asked, by rw [idle]; rfl⟩
  | handled read asked ran =>
    rw [hread] at read
    obtain rfl := Except.ok.inj read
    exact ⟨true, asked, by rw [ran]; rfl⟩

variable [Number.Arithmetic ν] {c : Config} {draw : Draw ν} {token : CancelToken} {r : Resolution}

theorem refused_of_process {e : PayloadError} (h : (process c draw token d).Ends es r)
    (hread : Payload.ofWire d.message.payload = .error e) : Refused c e es := by
  have unread {payload : Payload} (read : Payload.ofWire d.message.payload = .ok payload) :
      False := by
    rw [hread] at read
    cases read
  obtain ⟨unasked, idle⟩ : Exchanges.lookups es = [] ∧ es.runs = [] := by
    cases process_lookups h with
    | unread _ unasked idle => exact ⟨unasked, idle⟩
    | unhandled read => exact (unread read).elim
    | handled read => exact (unread read).elim
  refine ⟨unasked, idle, ?_⟩
  obtain ⟨p, id, receivedAt, -, -, -, hprocessed⟩ := process_ends h
  cases hprocessed with
  | malformed read idle trail lastError clock routed =>
    rw [hread] at read
    obtain rfl := Except.error.inj read
    obtain ⟨x, hx⟩ := routed.head?
    exact ⟨_, x, hx, (deadLetterCopy_spec trail lastError).reason⟩
  | skipped read => exact (unread read).elim
  | requeued read => exact (unread read).elim
  | succeeded read => exact (unread read).elim
  | retried f => exact (unread f.read).elim
  | neverDue f => exact (unread f.read).elim
  | noBackoff f => exact (unread f.read).elim
  | givenUp f => exact (unread f.read).elim

end Worker

namespace Payload

/-- **The wire format of payloads.** A payload whose doubles read back is read back from what is
written of it if it is nested at most as deep as the reader goes, and is malformed otherwise; a
worker gets what a client has put on a queue in the first case and refuses it in the second. What
was read is read again once it is written. -/
theorem wire_format (p : Payload) (doubles : ∀ x, p.toValue.HasDouble x → Reader.ReadsBack x) :
    (p.toValue.Canonical →
      (p.toValue.depth ≤ Value.maxDepth → ofWire p.toWire = .ok p) ∧
      (Value.maxDepth < p.toValue.depth → ∃ e, ofWire p.toWire = .error e ∧ TooDeep e) ∧
      ∀ (ν : Type) [Number.Arithmetic ν] topics task m c draw token d (es : Exchanges ν) r,
        Client.Sends ν topics task p m → d.message.payload = m.payload →
        (Worker.process c draw token d).Ends es r →
        (p.toValue.depth ≤ Value.maxDepth → Worker.Taken p d es) ∧
        (Value.maxDepth < p.toValue.depth → ∃ e, Worker.Refused c e es ∧ TooDeep e)) ∧
    ∀ bs, ofWire bs = .ok p → ofWire p.toWire = .ok p := by
  refine ⟨fun canonical => ⟨ofWire_toWire canonical doubles,
    ofWire_toWire_of_deep canonical doubles, ?_⟩, fun bs h => ofWire_again h doubles⟩
  intro ν _ topics task m c draw token d es r hsent hd run
  rw [hsent.payload] at hd
  constructor
  · intro hdepth
    exact (Worker.process_lookups run).taken (hd ▸ ofWire_toWire canonical doubles hdepth)
  · intro hdepth
    obtain ⟨e, hread, he⟩ := ofWire_toWire_of_deep canonical doubles hdepth
    exact ⟨e, Worker.refused_of_process run (hd ▸ hread), he⟩

/-- A payload with numbers, nested values and texts that are escaped goes from a client to a handler
as it is. -/
theorem handler_gets_payload :
    ∃ (p : Payload) (m : Message) (d : Delivery) (es : Exchanges Double),
      p.get? "\"\n" = some (.list [.int Value.minInt, .int Value.maxInt,
        .double ⟨0x3FF8000000000000⟩, .object [("deep", .list [])], .text "\\\u0001"]) ∧
      Client.Sends Double ⟨"ready", "waiting", "dead"⟩ "t" p m ∧ d.message = m ∧
      es.runs.map TaskRun.payload = [p] ∧ ofWire p.toWire = .ok p := by
  let x : Double := ⟨0x3FF8000000000000⟩
  let v : Value := .list [.int Value.minInt, .int Value.maxInt, .double x,
    .object [("deep", .list [])], .text "\\\u0001"]
  let p : Payload := insert ∅ "\"\n" v
  have hx : Reader.ReadsBack ⟨0x3FF8000000000000⟩ := by
    unfold Reader.ReadsBack
    rfl
  have doubles : ∀ y, p.toValue.HasDouble y → Reader.ReadsBack y := by
    intro y h
    cases h with
    | inObject mem h =>
      obtain rfl := List.mem_singleton.mp mem
      cases h with
      | inList mem h =>
        simp only [List.mem_cons, List.not_mem_nil, or_false] at mem
        rcases mem with rfl | rfl | rfl | rfl | rfl
        · cases h
        · cases h
        · cases h
          exact hx
        · cases h with
          | inObject mem h =>
            obtain rfl := List.mem_singleton.mp mem
            cases h with
            | inList mem h => cases mem
        · cases h
  have canonical : p.toValue.Canonical := by
    have hdouble : x.isFinite = true := by decide
    refine ⟨by decide, ⟨⟨by decide, by decide⟩, ⟨by decide, by decide⟩, hdouble, ⟨by decide, ?_⟩,
      ?_⟩, ?_⟩
    all_goals simp [Value.CanonicalMembers, Value.CanonicalList, Value.Canonical]
  have wire := (wire_format p doubles).1 canonical
  let m : Message := ((⟨"t", p.toWire, ∅⟩ : Message).setHeader Header.correlationId "a").setHeader
    Header.enqueuedAt Time.Instant.epoch.renderMillis
  let d : Delivery := ⟨⟨"ready", 0, "0"⟩, m, 1⟩
  let c : Worker.Config :=
    ⟨⟨"ready", "waiting", "dead"⟩, "workers", .zero, .skip, .zero, Policy.noRetry⟩
  let es : Exchanges Double := [⟨.count .processed, ()⟩, ⟨.now, .epoch⟩, ⟨.policy, Policy.noRetry⟩,
    ⟨.now, .epoch⟩, ⟨.handles "t", true⟩, ⟨.now, .epoch⟩,
    ⟨.handle (Worker.contextOf Policy.noRetry .never d "a") p, .succeeded⟩, ⟨.ack d, .ok ()⟩,
    ⟨.forget d.position.render, ()⟩, ⟨.count .succeeded, ()⟩]
  have sent : Client.Sends Double c.topics "t" p m := by
    have run : (Client.enqueue c.topics "t" p).Ends
        ([⟨.newId, "a"⟩, ⟨.now, .epoch⟩, ⟨.publish "ready" m, .ok ()⟩] : Exchanges Double)
        (.ok "a") := .ask _ _ (.ask _ _ (.ask _ _ (.done _)))
    exact .atOnce run List.mem_cons_self
  have hdepth : p.toValue.depth ≤ Value.maxDepth := by decide
  have hread : ofWire d.message.payload = .ok p := wire.1 hdepth
  have run : (Worker.process c id .never d).Ends es (.ok .succeeded) := by
    refine Worker.process_ends_iff.mpr ⟨_, _, [], _, "a", rfl, .done _, ?_⟩
    unfold Worker.resolve
    simp only [hread]
    exact .ask _ _ (.ask _ _ (.ask _ _ (.ask _ _ (.ask _ _ (.ask _ _ (.ask _ _ (.done _)))))))
  obtain ⟨handled, asked, ran⟩ := (wire.2.2 Double _ _ m c id .never d es _ sent rfl run).1 hdepth
  obtain rfl : true = handled := by
    cases asked
    rfl
  exact ⟨p, m, d, es, (get?_insert _ _ _ _).trans (if_pos rfl), sent, rfl, ran, hread⟩

end Payload

end TaskQueue
