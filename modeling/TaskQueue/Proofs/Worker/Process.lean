import TaskQueue.Proofs.Engine.Exchange
import TaskQueue.Worker.Process

/-!
# What processing a delivery comes to

Whatever is answered to a worker, the processing of one delivery takes one of a few courses. A
course says which handler ran, what went to the broker and in which order, and what the worker makes
of it.

Results:

* `priorFailures_lt`: a count that a message brings along leaves one run at least;
* `process_ends`: every processing takes one of the courses of `Processed`;
* `process_failed`, `handleFailure_retried`, `handleFailure_givenUp`: the exchanges of a failed run.
-/

namespace TaskQueue.Worker

open Time Text Engine Retry Script

variable {ν : Type}

/-! ## Counting failures -/

/-- The failures that the header of a message claims. -/
def claimedFailures (m : Message) : Nat :=
  ((m.header? Header.retryAttempt).bind (natural? maxNat32)).getD 0

theorem toNat_priorFailures (p : Policy ν) (m : Message) :
    (priorFailures p m).toNat = min (claimedFailures m) (p.maxRetries.toNat - 1) := by
  unfold priorFailures
  have := p.maxRetries.toNat_lt
  rw [UInt32.toNat_ofNat_of_lt']
  · rfl
  · have hle := Nat.min_le_right (claimedFailures m) (p.maxRetries.toNat - 1)
    simp only [UInt32.size]
    exact Nat.lt_of_le_of_lt hle (by omega)

/-- **A message has one run left at least**, whatever its header claims. -/
theorem priorFailures_lt (p : Policy ν) (m : Message) :
    (priorFailures p m).toNat < max p.maxRetries.toNat 1 := by
  rw [toNat_priorFailures]
  omega

/-- The trail is that of a delivery whose task has failed so often. -/
structure TrailOf (d : Delivery) (id : String) (seen : Instant) (failures : Nat) (t : Trail) :
    Prop where
  failures : t.failures.toNat = failures
  topic : t.topic = d.position.topic
  partition : t.partition = d.position.partition
  offset : t.offset = d.position.offset
  firstSeen : t.firstSeen = seen
  correlationId : t.correlationId = id

variable {d : Delivery} {id : String} {seen : Instant} {n : Nat} {t : Trail}

theorem TrailOf.record (h : TrailOf d id seen n t) (stage : Stage) (now : Instant) :
    TrailOf d id seen n (t.record stage now) := ⟨h.1, h.2, h.3, h.4, h.5, h.6⟩

/-- A failure is counted, as long as the count has not reached its end. -/
theorem TrailOf.recordFailure (h : TrailOf d id seen n t) (hn : n < maxNat32) (error : String)
    (now : Instant) : TrailOf d id seen (n + 1) (t.recordFailure error now) := by
  refine ⟨?_, h.2, h.3, h.4, h.5, h.6⟩
  have hne : t.failures ≠ UInt32.ofNat maxNat32 := by
    intro he
    have := congrArg UInt32.toNat he
    rw [h.failures] at this
    simp [maxNat32] at this hn
    omega
  simp only [Trail.recordFailure, Trail.record, if_neg hne]
  have := h.failures
  rw [UInt32.toNat_add, this]
  simp only [maxNat32] at hn
  have h1 : UInt32.toNat 1 = 1 := rfl
  omega

/-! ## Courses -/

/-- What a worker makes of the answer to the last thing it asks of the broker. -/
def settled (o : Outcome) : Except TransportError Unit → Resolution
  | .ok () => .ok o
  | .error e => .error (.transport e)

theorem settled_eq_ok_iff {o o' : Outcome} {x : Except TransportError Unit} :
    settled o x = .ok o' ↔ x = .ok () ∧ o' = o := by
  cases x with
  | ok u => simp only [settled, Except.ok.injEq, true_and, eq_comm]
  | error e => simp only [settled, reduceCtorEq, false_and]

/-- A copy was to be published; if it was, the delivery was acknowledged with the answer `r`. -/
inductive Routed (d : Delivery) (topic : String) (m : Message) :
    Exchanges ν → Except TransportError Unit → Prop where
  | refused (e : TransportError) : Routed d topic m [⟨.publish topic m, .error e⟩] (.error e)
  | acked (r : Except TransportError Unit) :
      Routed d topic m [⟨.publish topic m, .ok ()⟩, ⟨.ack d, r⟩] r

theorem Routed.of_ok {topic : String} {m : Message} {es : Exchanges ν}
    (h : Routed d topic m es (.ok ())) : es = [⟨.publish topic m, .ok ()⟩, ⟨.ack d, .ok ()⟩] := by
  cases h with
  | acked => rfl

/-- The copy is published first. -/
theorem Routed.head? {topic : String} {m : Message} {x : Except TransportError Unit}
    {es : Exchanges ν} (h : Routed d topic m es x) :
    ∃ y, es.head? = some ⟨.publish topic m, y⟩ := by
  cases h with
  | refused e => exact ⟨_, rfl⟩
  | acked => exact ⟨_, rfl⟩

/-- Nothing else is published. -/
theorem Routed.eq_of_mem {topic topic' : String} {m m' : Message} {es : Exchanges ν}
    {x y : Except TransportError Unit} (h : Routed d topic m es x)
    (sent : ⟨.publish topic' m', y⟩ ∈ es) : topic' = topic ∧ m' = m := by
  cases h with
  | refused e =>
    cases List.mem_singleton.mp sent
    exact ⟨rfl, rfl⟩
  | acked r =>
    rcases List.mem_cons.mp sent with h | h
    · cases h
      exact ⟨rfl, rfl⟩
    · cases List.mem_singleton.mp h

/-- No handler ran and no identifier was given out. -/
structure Quiet (es : Exchanges ν) : Prop where
  runs : es.runs = []
  newIds : es.newIds = []

/-- The identifier of a delivery is in its header, or else it was given out. -/
def Identified (d : Delivery) (id : String) (es : Exchanges ν) : Prop :=
  (d.message.header? Header.correlationId = some id ∧ es.newIds = []) ∨
  (d.message.header? Header.correlationId = none ∧ es.newIds = [id])

/-- What the handler of a delivery is told. -/
def contextOf (p : Policy ν) (token : CancelToken) (d : Delivery) (id : String) : Context :=
  ⟨d.message.key, id, priorFailures p d.message, d.position.render, token⟩

/-- The handler ran and failed with `error`, and the trail tells so. -/
structure FailedRun (p : Policy ν) (token : CancelToken) (d : Delivery) (id : String)
    (seen : Instant) (es : Exchanges ν) (payload : Payload) (ending : HandlerEnd) (error : String)
    (t : Trail) : Prop where
  read : Payload.ofWire d.message.payload = .ok payload
  ran : es.runs = [⟨contextOf p token d id, payload, ending⟩]
  failed : ending.error? = some error
  trail : TrailOf d id seen ((priorFailures p d.message).toNat + 1) t
  lastError : t.lastError = some error

/-- **The courses that processing a delivery may take**, by the policy `p`. -/
inductive Processed [Number.Arithmetic ν] (c : Config) (draw : Draw ν) (token : CancelToken)
    (d : Delivery) (p : Policy ν) (id : String) (seen : Instant) (es : Exchanges ν) :
    Resolution → Prop where
  /-- The payload cannot be read. -/
  | malformed {e : PayloadError} {t : Trail} {now : Instant} {r : Except TransportError Unit}
      (unread : Payload.ofWire d.message.payload = .error e) (idle : es.runs = [])
      (trail : TrailOf d id seen ((priorFailures p d.message).toNat + 1) t)
      (lastError : t.lastError = some ("malformed payload: " ++ e.message))
      (clock : ⟨.now, now⟩ ∈ es)
      (routed : Routed d c.topics.deadLetter (deadLetterCopy d t now) es.transport r) :
      Processed c draw token d p id seen es (settled .deadLettered r)
  | skipped {payload : Payload} {r : Except TransportError Unit}
      (read : Payload.ofWire d.message.payload = .ok payload) (idle : es.runs = [])
      (unhandled : ⟨.handles d.message.key, false⟩ ∈ es) (rule : c.unknownTask = .skip)
      (acked : es.transport = [⟨.ack d, r⟩]) :
      Processed c draw token d p id seen es (settled .skipped r)
  | requeued {payload : Payload} {r : Except TransportError Unit}
      (read : Payload.ofWire d.message.payload = .ok payload) (idle : es.runs = [])
      (unhandled : ⟨.handles d.message.key, false⟩ ∈ es) (rule : c.unknownTask = .requeue)
      (rejected : es.transport = [⟨.reject d true, r⟩]) :
      Processed c draw token d p id seen es (settled .requeued r)
  | succeeded {payload : Payload} {r : Except TransportError Unit}
      (read : Payload.ofWire d.message.payload = .ok payload)
      (ran : es.runs = [⟨contextOf p token d id, payload, .succeeded⟩])
      (acked : es.transport = [⟨.ack d, r⟩]) :
      Processed c draw token d p id seen es (settled .succeeded r)
  | retried {payload : Payload} {ending : HandlerEnd} {error : String} {t : Trail} {backoff : Span}
      {now due : Instant} {r : Except TransportError Unit}
      (run : FailedRun p token d id seen es payload ending error t)
      (again : p.retries ((priorFailures p d.message).toNat + 1) error = true)
      (wait : p.backoff draw ((priorFailures p d.message).toNat + 1) = .ok backoff)
      (clock : ⟨.now, now⟩ ∈ es) (onTime : dueAfter now backoff = some due)
      (routed : Routed d c.topics.delayed (retryCopy d.message t backoff due) es.transport r) :
      Processed c draw token d p id seen es (settled .retried r)
  /-- The due time of the retry is no instant. -/
  | neverDue {payload : Payload} {ending : HandlerEnd} {error : String} {t : Trail} {backoff : Span}
      {now : Instant} (run : FailedRun p token d id seen es payload ending error t)
      (again : p.retries ((priorFailures p d.message).toNat + 1) error = true)
      (wait : p.backoff draw ((priorFailures p d.message).toNat + 1) = .ok backoff)
      (clock : ⟨.now, now⟩ ∈ es) (never : dueAfter now backoff = none) (idle : es.transport = []) :
      Processed c draw token d p id seen es (.error (.overflow .beyondRange))
  | noBackoff {payload : Payload} {ending : HandlerEnd} {error : String} {t : Trail}
      {e : BackoffError} (run : FailedRun p token d id seen es payload ending error t)
      (again : p.retries ((priorFailures p d.message).toNat + 1) error = true)
      (wait : p.backoff draw ((priorFailures p d.message).toNat + 1) = .error e)
      (idle : es.transport = []) : Processed c draw token d p id seen es (.error (.backoff e))
  | givenUp {payload : Payload} {ending : HandlerEnd} {error : String} {t : Trail} {now : Instant}
      {r : Except TransportError Unit} (run : FailedRun p token d id seen es payload ending error t)
      (again : p.retries ((priorFailures p d.message).toNat + 1) error = false)
      (clock : ⟨.now, now⟩ ∈ es)
      (routed : Routed d c.topics.deadLetter (deadLetterCopy d t now) es.transport r) :
      Processed c draw token d p id seen es (settled .deadLettered r)

/-! ## The parts of processing -/

variable {es : Exchanges ν} {r : Resolution}

theorem conclude_ends {o : Outcome} {x : Except TransportError Unit}
    (h : (conclude o x).Ends es r) :
    r = settled o x ∧ es.transport = [] ∧ Quiet es ∧ es.readings = [] := by
  unfold conclude at h
  cases x with
  | ok u =>
    simp only [request_bind, pure_eq_done, ends_ask_iff, ends_done_iff] at h
    obtain ⟨u', es', rfl, rfl, rfl⟩ := h
    exact ⟨rfl, rfl, ⟨rfl, rfl⟩, rfl⟩
  | error e =>
    simp only [pure_eq_done, ends_done_iff] at h
    obtain ⟨rfl, rfl⟩ := h
    exact ⟨rfl, rfl, ⟨rfl, rfl⟩, rfl⟩

theorem forward_ends {topic : String} {m : Message} {x : Except TransportError Unit}
    (h : (forward d topic m).Ends es x) :
    Routed d topic m es.transport x ∧ Quiet es ∧ es.readings = [] := by
  unfold forward at h
  simp only [request_bind, ends_ask_iff] at h
  obtain ⟨y, es', rfl, h⟩ := h
  cases y with
  | error e =>
    simp only [pure_eq_done, done_bind, ends_ask_iff, ends_done_iff] at h
    obtain ⟨u, es'', rfl, rfl, rfl⟩ := h
    exact ⟨.refused e, ⟨rfl, rfl⟩, rfl⟩
  | ok u =>
    simp only [pure_eq_done, ends_ask_iff, ends_done_iff] at h
    obtain ⟨y, es'', rfl, u', es''', rfl, rfl, rfl⟩ := h
    exact ⟨.acked x, ⟨rfl, rfl⟩, rfl⟩

theorem Quiet.append {es' : Exchanges ν} (h : Quiet es) (h' : Quiet es') : Quiet (es ++ es') where
  runs := by rw [Exchanges.runs_append, h.runs, h'.runs]; rfl
  newIds := by rw [Exchanges.newIds_append, h.newIds, h'.newIds]; rfl

/-- A copy is published, the delivery acknowledged and the outcome counted. -/
theorem route_ends {o : Outcome} {topic : String} {m : Message}
    (h : (forward d topic m >>= conclude o).Ends es r) :
    ∃ x, r = settled o x ∧ Routed d topic m es.transport x ∧ Quiet es ∧ es.readings = [] := by
  obtain ⟨es₁, es₂, x, rfl, h₁, h₂⟩ := ends_bind_iff.mp h
  obtain ⟨hr, hq₁, hnow₁⟩ := forward_ends h₁
  obtain ⟨rfl, ht, hq₂, hnow₂⟩ := conclude_ends h₂
  refine ⟨x, rfl, ?_, hq₁.append hq₂, ?_⟩
  · rw [Exchanges.transport_append, ht, List.append_nil]
    exact hr
  · rw [Exchanges.readings_append, hnow₁, hnow₂]
    rfl

theorem deadLetter_ends {topics : Topics} (h : (deadLetter topics d t).Ends es r) :
    ∃ now x, r = settled .deadLettered x ∧ es.readings = [now] ∧ Quiet es ∧
      Routed d topics.deadLetter (deadLetterCopy d (t.record .deadLettered now) now)
        es.transport x := by
  unfold deadLetter at h
  simp only [request_bind, ends_ask_iff] at h
  obtain ⟨now, es₁, rfl, u, es₂, rfl, h⟩ := h
  obtain ⟨x, rfl, hr, hq, hnow⟩ := route_ends h
  exact ⟨now, x, rfl, congrArg (now :: ·) hnow, ⟨hq.runs, hq.newIds⟩, hr⟩

theorem scheduleRetry_ends {topics : Topics} {backoff : Span}
    (h : (scheduleRetry topics d t backoff).Ends es r) :
    ∃ now, es.readings = [now] ∧ Quiet es ∧
      ((dueAfter now backoff = none ∧ r = .error (.overflow .beyondRange) ∧ es.transport = []) ∨
      ∃ due x, dueAfter now backoff = some due ∧ r = settled .retried x ∧
        Routed d topics.delayed (retryCopy d.message (t.record .retried now) backoff due)
          es.transport x) := by
  unfold scheduleRetry at h
  simp only [request_bind, ends_ask_iff] at h
  obtain ⟨now, es₁, rfl, h⟩ := h
  refine ⟨now, ?_⟩
  cases hd : dueAfter now backoff with
  | none =>
    simp only [hd, pure_eq_done, ends_done_iff] at h
    obtain ⟨rfl, rfl⟩ := h
    exact ⟨rfl, ⟨rfl, rfl⟩, Or.inl ⟨rfl, rfl, rfl⟩⟩
  | some due =>
    simp only [hd, ends_ask_iff] at h
    obtain ⟨u, es₂, rfl, h⟩ := h
    obtain ⟨x, rfl, hr, hq, hnow⟩ := route_ends h
    exact ⟨congrArg (now :: ·) hnow, ⟨hq.runs, hq.newIds⟩, Or.inr ⟨due, x, rfl, rfl, hr⟩⟩

/-- A message whose task has no handler is acknowledged or handed back. -/
theorem resolveUnknown_ends {c : Config} (h : (resolveUnknown c d).Ends es r) :
    Quiet es ∧ ∃ x,
      (c.unknownTask = .skip ∧ r = settled .skipped x ∧ es.transport = [⟨.ack d, x⟩]) ∨
      (c.unknownTask = .requeue ∧ r = settled .requeued x ∧
        es.transport = [⟨.reject d true, x⟩]) := by
  unfold resolveUnknown at h
  cases hu : c.unknownTask with
  | skip =>
    simp only [hu, request_bind, ends_ask_iff] at h
    obtain ⟨x, es₁, rfl, h⟩ := h
    obtain ⟨rfl, ht, hq, -⟩ := conclude_ends h
    refine ⟨⟨hq.runs, hq.newIds⟩, x, Or.inl ⟨rfl, rfl, ?_⟩⟩
    exact congrArg (_ :: ·) ht
  | requeue =>
    simp only [hu, request_bind, ends_ask_iff] at h
    obtain ⟨u, es₁, rfl, x, es₂, rfl, h⟩ := h
    obtain ⟨rfl, ht, hq, -⟩ := conclude_ends h
    refine ⟨⟨hq.runs, hq.newIds⟩, x, Or.inr ⟨rfl, rfl, ?_⟩⟩
    exact congrArg (_ :: ·) ht

/-! ## Processing as a whole -/

section

variable [Number.Arithmetic ν] {c : Config} {draw : Draw ν} {token : CancelToken} {p : Policy ν}

/-- The identifier of a message: the one in its header, or else a new one. -/
def identify (m : Message) : Program ν String :=
  match m.header? Header.correlationId with
  | some id => pure id
  | none => ask .newId

/-- The trail of a delivery as it begins. -/
def firstTrail (p : Policy ν) (d : Delivery) (id : String) (receivedAt : Instant) : Trail :=
  { Trail.start d.position id (firstSeen d.message receivedAt) with
    failures := priorFailures p d.message }.record .received receivedAt

/-- Runs the handler and resolves the delivery by its end. -/
def runTask (c : Config) (draw : Draw ν) (token : CancelToken) (d : Delivery) (p : Policy ν)
    (id : String) (t : Trail) (payload : Payload) : Program ν Resolution := do
  let t := t.record .dispatched (← ask .now)
  match (← ask (.handle (contextOf p token d id) payload)).error? with
  | none =>
    match ← ask (.ack d) with
    | .ok () =>
      ask (.forget d.position.render)
      conclude .succeeded (.ok ())
    | .error e => return .error (.transport e)
  | some error =>
    let t := t.recordFailure error (← ask .now)
    ask (.remember d.position.render t)
    handleFailure c.topics p draw d t

/-- Resolves a delivery whose identifier is known. -/
def resolve (c : Config) (draw : Draw ν) (token : CancelToken) (d : Delivery) (p : Policy ν)
    (id : String) (t : Trail) : Program ν Resolution :=
  match Payload.ofWire d.message.payload with
  | .error e => do
    let t := t.recordFailure ("malformed payload: " ++ e.message) (← ask .now)
    ask (.remember d.position.render t)
    deadLetter c.topics d t
  | .ok payload => do
    let t := t.record .parsed (← ask .now)
    if ← ask (.handles d.message.key) then runTask c draw token d p id t payload
    else resolveUnknown c d

theorem process_eq : process c draw token d = (do
    ask (.count .processed)
    let receivedAt ← ask .now
    let p ← ask .policy
    let id ← identify d.message
    resolve c draw token d p id (firstTrail p d id receivedAt)) := by
  unfold process identify
  simp only [request_bind]
  congr 1
  funext _
  congr 1
  funext receivedAt
  congr 1
  funext p
  cases d.message.header? Header.correlationId with
  | none => rfl
  | some id => rfl

omit [Number.Arithmetic ν] in
theorem firstTrail_trailOf (p : Policy ν) (d : Delivery) (id : String) (receivedAt : Instant) :
    TrailOf d id (firstSeen d.message receivedAt) (priorFailures p d.message).toNat
      (firstTrail p d id receivedAt) := ⟨rfl, rfl, rfl, rfl, rfl, rfl⟩

/-- A course is the same when exchanges are added that concern neither the broker nor a handler. -/
theorem Processed.mono {es es' : Exchanges ν} (h : Processed c draw token d p id seen es r)
    (hsub : es ⊆ es') (ht : es'.transport = es.transport) (hr : es'.runs = es.runs) :
    Processed c draw token d p id seen es' r := by
  have run {payload ending error t} (f : FailedRun p token d id seen es payload ending error t) :
      FailedRun p token d id seen es' payload ending error t :=
    { f with ran := hr.trans f.ran }
  cases h with
  | malformed unread idle trail lastError clock routed =>
    exact .malformed unread (hr.trans idle) trail lastError (hsub clock) (ht ▸ routed)
  | skipped read idle unhandled rule acked =>
    exact .skipped read (hr.trans idle) (hsub unhandled) rule (ht.trans acked)
  | requeued read idle unhandled rule rejected =>
    exact .requeued read (hr.trans idle) (hsub unhandled) rule (ht.trans rejected)
  | succeeded read ran acked => exact .succeeded read (hr.trans ran) (ht.trans acked)
  | retried f again wait clock onTime routed =>
    exact .retried (run f) again wait (hsub clock) onTime (ht ▸ routed)
  | neverDue f again wait clock never idle =>
    exact .neverDue (run f) again wait (hsub clock) never (ht.trans idle)
  | noBackoff f again wait idle => exact .noBackoff (run f) again wait (ht.trans idle)
  | givenUp f again clock routed => exact .givenUp (run f) again (hsub clock) (ht ▸ routed)

/-- A failure is followed by a retry or by a dead letter, as the policy says. -/
theorem handleFailure_ends {topics : Topics} {error : String} (hn : t.failures.toNat = n)
    (he : t.lastError = some error) (h : (handleFailure topics p draw d t).Ends es r) :
    Quiet es ∧
      ((p.retries n error = false ∧ ∃ now x, r = settled .deadLettered x ∧ es.readings = [now] ∧
        Routed d topics.deadLetter (deadLetterCopy d (t.record .deadLettered now) now)
          es.transport x) ∨
      (p.retries n error = true ∧ ∃ e, p.backoff draw n = .error e ∧ r = .error (.backoff e) ∧
        es.transport = []) ∨
      (p.retries n error = true ∧ ∃ backoff now, p.backoff draw n = .ok backoff ∧
        es.readings = [now] ∧
        ((dueAfter now backoff = none ∧ r = .error (.overflow .beyondRange) ∧ es.transport = []) ∨
        ∃ due x, dueAfter now backoff = some due ∧ r = settled .retried x ∧
          Routed d topics.delayed (retryCopy d.message (t.record .retried now) backoff due)
            es.transport x))) := by
  unfold handleFailure at h
  rw [hn, he, Option.getD_some] at h
  cases ha : p.retries n error with
  | false =>
    rw [ha, if_neg Bool.false_ne_true] at h
    obtain ⟨now, x, rfl, hnow, hq, hr⟩ := deadLetter_ends h
    exact ⟨hq, Or.inl ⟨rfl, now, x, rfl, hnow, hr⟩⟩
  | true =>
    rw [ha, if_pos rfl] at h
    cases hb : p.backoff draw n with
    | error e =>
      simp only [hb, pure_eq_done, ends_done_iff] at h
      obtain ⟨rfl, rfl⟩ := h
      exact ⟨⟨rfl, rfl⟩, Or.inr (Or.inl ⟨rfl, e, rfl, rfl, rfl⟩)⟩
    | ok backoff =>
      simp only [hb] at h
      obtain ⟨now, hnow, hq, hr⟩ := scheduleRetry_ends h
      exact ⟨hq, Or.inr (Or.inr ⟨rfl, backoff, now, rfl, hnow, hr⟩)⟩

theorem error?_eq_none_iff {ending : HandlerEnd} : ending.error? = none ↔ ending = .succeeded := by
  cases ending <;> simp [HandlerEnd.error?]

omit [Number.Arithmetic ν] in
/-- One more failure can always be counted. -/
theorem priorFailures_lt_max (p : Policy ν) (m : Message) :
    (priorFailures p m).toNat < maxNat32 := by
  have hlt := priorFailures_lt p m
  have hle := p.maxRetries.toNat_lt
  simp only [maxNat32]
  omega

theorem runTask_ends {payload : Payload} (hread : Payload.ofWire d.message.payload = .ok payload)
    (ht : TrailOf d id seen (priorFailures p d.message).toNat t)
    (h : (runTask c draw token d p id t payload).Ends es r) :
    es.newIds = [] ∧ Processed c draw token d p id seen es r := by
  unfold runTask at h
  simp only [request_bind, ends_ask_iff] at h
  obtain ⟨startedAt, es₁, rfl, ending, es₂, rfl, h⟩ := h
  cases hend : ending.error? with
  | none =>
    obtain rfl := error?_eq_none_iff.mp hend
    simp only [HandlerEnd.error?, ends_ask_iff] at h
    obtain ⟨x, es₃, rfl, h⟩ := h
    cases x with
    | error e =>
      simp only [pure_eq_done, ends_done_iff] at h
      obtain ⟨rfl, rfl⟩ := h
      exact ⟨rfl, .succeeded (r := .error e) hread rfl rfl⟩
    | ok u =>
      simp only [ends_ask_iff] at h
      obtain ⟨u', es₄, rfl, h⟩ := h
      obtain ⟨rfl, htr, hq, -⟩ := conclude_ends h
      refine ⟨hq.newIds, .succeeded (r := .ok ()) hread ?_ ?_⟩
      · exact congrArg (_ :: ·) hq.runs
      · exact congrArg (_ :: ·) htr
  | some error =>
    simp only [hend, ends_ask_iff] at h
    obtain ⟨failedAt, es₃, rfl, u, es₄, rfl, h⟩ := h
    have ht' := (ht.record .dispatched startedAt).recordFailure (priorFailures_lt_max p d.message)
      error failedAt
    obtain ⟨hq, hr⟩ := handleFailure_ends ht'.failures rfl h
    refine ⟨hq.newIds, ?_⟩
    -- what the retry or the dead letter adds to the trail are marks only
    have run (stage : Stage) (now : Instant) : FailedRun p token d id seen
        (⟨.now, startedAt⟩ :: ⟨.handle (contextOf p token d id) payload, ending⟩ ::
          ⟨.now, failedAt⟩ :: ⟨.remember d.position.render
            ((t.record .dispatched startedAt).recordFailure error failedAt), u⟩ :: es₄)
        payload ending error
        (((t.record .dispatched startedAt).recordFailure error failedAt).record stage now) :=
      ⟨hread, congrArg (_ :: ·) hq.runs, hend, ht'.record stage now, rfl⟩
    rcases hr with ⟨hret, now, x, rfl, hnow, hr⟩ | ⟨hret, e, hb, rfl, hnil⟩ |
      ⟨hret, backoff, now, hb, hnow, ⟨hd, rfl, hnil⟩ | ⟨due, x, hd, rfl, hr⟩⟩
    · have hmem := Exchanges.mem_of_readings_eq hnow
      exact .givenUp (run _ _) hret (.tail _ (.tail _ (.tail _ (.tail _ hmem)))) hr
    · exact .noBackoff (run .failed failedAt) hret hb hnil
    · have hmem := Exchanges.mem_of_readings_eq hnow
      exact .neverDue (run .failed failedAt) hret hb
        (.tail _ (.tail _ (.tail _ (.tail _ hmem)))) hd hnil
    · have hmem := Exchanges.mem_of_readings_eq hnow
      exact .retried (run _ _) hret hb (.tail _ (.tail _ (.tail _ (.tail _ hmem)))) hd hr

theorem resolve_ends (ht : TrailOf d id seen (priorFailures p d.message).toNat t)
    (h : (resolve c draw token d p id t).Ends es r) :
    es.newIds = [] ∧ Processed c draw token d p id seen es r := by
  unfold resolve at h
  cases hread : Payload.ofWire d.message.payload with
  | error e =>
    simp only [hread, request_bind, ends_ask_iff] at h
    obtain ⟨failedAt, es₁, rfl, u, es₂, rfl, h⟩ := h
    obtain ⟨now, x, rfl, hnow, hq, hr⟩ := deadLetter_ends h
    have ht' := ht.recordFailure (priorFailures_lt_max p d.message)
      ("malformed payload: " ++ e.message) failedAt
    exact ⟨hq.newIds, .malformed hread hq.runs (ht'.record .deadLettered now) rfl
      (.tail _ (.tail _ (Exchanges.mem_of_readings_eq hnow))) hr⟩
  | ok payload =>
    simp only [hread, request_bind, ends_ask_iff] at h
    obtain ⟨parsedAt, es₁, rfl, handled, es₂, rfl, h⟩ := h
    cases handled with
    | true =>
      rw [if_pos rfl] at h
      obtain ⟨hid, hp⟩ := runTask_ends hread (ht.record .parsed parsedAt) h
      exact ⟨hid, hp.mono (fun _ he => .tail _ (.tail _ he)) rfl rfl⟩
    | false =>
      rw [if_neg Bool.false_ne_true] at h
      obtain ⟨hq, x, ⟨hu, rfl, hr⟩ | ⟨hu, rfl, hr⟩⟩ := resolveUnknown_ends h
      · exact ⟨hq.newIds, .skipped hread hq.runs (.tail _ (.head _)) hu hr⟩
      · exact ⟨hq.newIds, .requeued hread hq.runs (.tail _ (.head _)) hu hr⟩

omit [Number.Arithmetic ν] in
/-- The identifier of a task is the one in its header, or a new one. -/
theorem identify_ends_iff {m : Message} : (identify m).Ends es id ↔
    (m.header? Header.correlationId = some id ∧ es = []) ∨
      (m.header? Header.correlationId = none ∧ es = [⟨.newId, id⟩]) := by
  unfold identify
  cases m.header? Header.correlationId with
  | none =>
    constructor
    · intro h
      obtain ⟨x, es₁, rfl, hdone⟩ := ends_ask_iff.mp h
      obtain ⟨rfl, rfl⟩ := ends_done_iff.mp hdone
      exact .inr ⟨rfl, rfl⟩
    · rintro (⟨hid, -⟩ | ⟨-, rfl⟩)
      · cases hid
      · exact .ask _ _ (.done id)
  | some id' =>
    constructor
    · intro h
      obtain ⟨rfl, rfl⟩ := ends_done_iff.mp h
      exact .inl ⟨rfl, rfl⟩
    · rintro (⟨hid, rfl⟩ | ⟨hid, -⟩)
      · cases hid
        exact .done id
      · cases hid

omit [Number.Arithmetic ν] in
theorem identify_named (named : d.message.header? Header.correlationId = some id) :
    (identify d.message : Program ν String).Ends [] id :=
  identify_ends_iff.mpr (.inl ⟨named, rfl⟩)

omit [Number.Arithmetic ν] in
theorem identify_ends {m : Message} (h : (identify m).Ends es id) :
    es.transport = [] ∧ es.runs = [] ∧
      ((m.header? Header.correlationId = some id ∧ es.newIds = []) ∨
      (m.header? Header.correlationId = none ∧ es.newIds = [id])) := by
  rcases identify_ends_iff.mp h with ⟨hid, rfl⟩ | ⟨hid, rfl⟩
  · exact ⟨rfl, rfl, .inl ⟨hid, rfl⟩⟩
  · exact ⟨rfl, rfl, .inr ⟨hid, rfl⟩⟩

/-- The exchanges of processing: the policy is looked up and the message identified, and then it is
resolved. -/
theorem process_ends_iff : (process c draw token d).Ends es r ↔
    ∃ receivedAt p es₁ es₂ id, es = ⟨.count .processed, ()⟩ :: ⟨.now, receivedAt⟩ ::
      ⟨.policy, p⟩ :: (es₁ ++ es₂) ∧ (identify d.message).Ends es₁ id ∧
      (resolve c draw token d p id (firstTrail p d id receivedAt)).Ends es₂ r := by
  rw [process_eq]
  simp only [request_bind, ends_ask_iff]
  constructor
  · rintro ⟨u, _, rfl, receivedAt, _, rfl, p, _, rfl, h⟩
    obtain ⟨es₁, es₂, id, rfl, hid, h⟩ := ends_bind_iff.mp h
    exact ⟨receivedAt, p, es₁, es₂, id, rfl, hid, h⟩
  · rintro ⟨receivedAt, p, es₁, es₂, id, rfl, hid, h⟩
    exact ⟨(), _, rfl, receivedAt, _, rfl, p, _, rfl,
      ends_bind_iff.mpr ⟨es₁, es₂, id, rfl, hid, h⟩⟩

/-- Every processing counts the delivery and reads the clock, and then takes one of the courses. -/
theorem process_begins (h : (process c draw token d).Ends es r) :
    ∃ p id receivedAt es', es = ⟨.count .processed, ()⟩ :: ⟨.now, receivedAt⟩ :: es' ∧
      ⟨.policy, p⟩ ∈ es' ∧ Identified d id es ∧
      Processed c draw token d p id (firstSeen d.message receivedAt) es r := by
  obtain ⟨receivedAt, p, es₄, es₅, id, rfl, hid, h⟩ := process_ends_iff.mp h
  obtain ⟨htr, hruns, hid⟩ := identify_ends hid
  obtain ⟨hnew, hp⟩ := resolve_ends (firstTrail_trailOf p d id receivedAt) h
  refine ⟨p, id, receivedAt, _, rfl, .head _, ?_, ?_⟩
  · have hes : Exchanges.newIds ((⟨.count .processed, ()⟩ : Exchange (Answer ν)) ::
        ⟨.now, receivedAt⟩ :: ⟨.policy, p⟩ :: (es₄ ++ es₅)) = Exchanges.newIds es₄ := by
      have := Exchanges.newIds_append es₄ es₅
      rw [hnew, List.append_nil] at this
      exact this
    unfold Identified
    rw [hes]
    exact hid
  · refine hp.mono (fun _ he => ?_) ?_ ?_
    · exact .tail _ (.tail _ (.tail _ (List.mem_append_right _ he)))
    · have := Exchanges.transport_append es₄ es₅
      rw [htr, List.nil_append] at this
      exact this
    · have := Exchanges.runs_append es₄ es₅
      rw [hruns, List.nil_append] at this
      exact this

/-- **Every processing takes one of the courses**, by a policy and under an identifier that were
answered on the way. -/
theorem process_ends (h : (process c draw token d).Ends es r) :
    ∃ p id receivedAt, ⟨.policy, p⟩ ∈ es ∧ ⟨.now, receivedAt⟩ ∈ es ∧ Identified d id es ∧
      Processed c draw token d p id (firstSeen d.message receivedAt) es r := by
  obtain ⟨p, id, receivedAt, es', rfl, hp, hid, hprocessed⟩ := process_begins h
  exact ⟨p, id, receivedAt, .tail _ (.tail _ hp), .tail _ (.head _), hid, hprocessed⟩

/-! ## Failed runs -/

omit [Number.Arithmetic ν] in
theorem routed_ends (d : Delivery) (topic : String) (m : Message) (o : Outcome) :
    (forward d topic m >>= conclude o : Program ν Resolution).Ends
      [⟨.publish topic m, .ok ()⟩, ⟨.ack d, .ok ()⟩, ⟨.forget d.position.render, ()⟩,
        ⟨.count o.counter, ()⟩] (.ok o) :=
  ends_bind_iff.mpr ⟨[_, _, _], [_], .ok (), rfl, .ask _ _ (.ask _ _ (.ask _ _ (.done _))),
    .ask _ _ (.done _)⟩

omit [Number.Arithmetic ν] in
theorem refused_ends (d : Delivery) (topic : String) (m : Message) (o : Outcome)
    (e : TransportError) :
    (forward d topic m >>= conclude o : Program ν Resolution).Ends
      [⟨.publish topic m, .error e⟩, ⟨.forget d.position.render, ()⟩] (.error (.transport e)) :=
  ends_bind_iff.mpr ⟨[_, _], [], .error e, rfl, .ask _ _ (.ask _ _ (.done _)), .done _⟩

theorem handleFailure_retried {topics : Topics} {t : Trail} {backoff : Span} {now due : Instant}
    (again : p.retries t.failures.toNat (t.lastError.getD "") = true)
    (wait : p.backoff draw t.failures.toNat = .ok backoff)
    (onTime : dueAfter now backoff = some due) :
    (handleFailure topics p draw d t).Ends
      [⟨.now, now⟩, ⟨.remember d.position.render (t.record .retried now), ()⟩,
        ⟨.publish topics.delayed (retryCopy d.message (t.record .retried now) backoff due), .ok ()⟩,
        ⟨.ack d, .ok ()⟩, ⟨.forget d.position.render, ()⟩, ⟨.count .retried, ()⟩]
      (.ok .retried) := by
  simp only [handleFailure, again, if_true, wait, scheduleRetry, request_bind]
  refine .ask _ _ ?_
  simp only [onTime]
  exact .ask _ _ (routed_ends d _ _ _)

theorem handleFailure_givenUp {topics : Topics} {t : Trail} (now : Instant)
    (again : p.retries t.failures.toNat (t.lastError.getD "") = false) :
    (handleFailure topics p draw d t).Ends
      [⟨.now, now⟩, ⟨.remember d.position.render (t.record .deadLettered now), ()⟩,
        ⟨.publish topics.deadLetter (deadLetterCopy d (t.record .deadLettered now) now),
          .ok ()⟩,
        ⟨.ack d, .ok ()⟩, ⟨.forget d.position.render, ()⟩, ⟨.count .deadLettered, ()⟩]
      (.ok .deadLettered) := by
  simp only [handleFailure, again, Bool.false_eq_true, if_false, deadLetter, request_bind]
  exact .ask _ _ (.ask _ _ (routed_ends d _ _ _))

theorem handleFailure_refused {topics : Topics} {t : Trail} (now : Instant) (e : TransportError)
    (again : p.retries t.failures.toNat (t.lastError.getD "") = false) :
    (handleFailure topics p draw d t).Ends
      [⟨.now, now⟩, ⟨.remember d.position.render (t.record .deadLettered now), ()⟩,
        ⟨.publish topics.deadLetter (deadLetterCopy d (t.record .deadLettered now) now), .error e⟩,
        ⟨.forget d.position.render, ()⟩] (.error (.transport e)) := by
  simp only [handleFailure, again, Bool.false_eq_true, if_false, deadLetter, request_bind]
  exact .ask _ _ (.ask _ _ (refused_ends d _ _ _ e))

/-- The trail of a delivery whose handler has failed, by a clock that stands still. -/
def failedTrail (p : Policy ν) (d : Delivery) (id error : String) (now : Instant) : Trail :=
  (((firstTrail p d id now).record .parsed now).record .dispatched now).recordFailure error now

omit [Number.Arithmetic ν] in
theorem failedTrail_trailOf (p : Policy ν) (d : Delivery) (id error : String) (now : Instant) :
    TrailOf d id (firstSeen d.message now) ((priorFailures p d.message).toNat + 1)
      (failedTrail p d id error now) :=
  (((firstTrail_trailOf p d id now).record .parsed now).record .dispatched now).recordFailure
    (priorFailures_lt_max p d.message) error now

/-- A delivery is processed up to the failure of its handler, and then by the policy. -/
theorem process_failed {es₁ es₂ : Exchanges ν} {payload : Payload} {ending : HandlerEnd}
    {error : String} {now : Instant} (hid : (identify d.message).Ends es₁ id)
    (hread : Payload.ofWire d.message.payload = .ok payload) (failed : ending.error? = some error)
    (h : (handleFailure c.topics p draw d (failedTrail p d id error now)).Ends es₂ r) :
    (process c draw token d).Ends
      (⟨.count .processed, ()⟩ :: ⟨.now, now⟩ :: ⟨.policy, p⟩ :: (es₁ ++
        (⟨.now, now⟩ :: ⟨.handles d.message.key, true⟩ :: ⟨.now, now⟩ ::
          ⟨.handle (contextOf p token d id) payload, ending⟩ :: ⟨.now, now⟩ ::
          ⟨.remember d.position.render (failedTrail p d id error now), ()⟩ :: es₂))) r := by
  refine process_ends_iff.mpr ⟨_, _, _, _, id, rfl, hid, ?_⟩
  unfold resolve
  simp only [hread]
  refine .ask _ _ (.ask _ _ ?_)
  change (runTask c draw token d p id _ payload).Ends _ _
  simp only [runTask, request_bind]
  refine .ask _ _ (.ask _ _ ?_)
  simp only [failed]
  exact .ask _ _ (.ask _ _ h)

end

end TaskQueue.Worker
