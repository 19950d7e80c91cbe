import TaskQueue.Proofs.Message.Copies
import TaskQueue.Proofs.Worker.Requests

/-!
# What a delivery turns into

Before a handler runs, the worker looks up whether the task has one; it does so once and only when
the payload can be read (`lookups`). With a broker that does not fail every processing then comes to
an outcome, and the outcome says what was published, with which headers, and how the delivery was
settled.

Results:

* `process_lookups`: a handler runs just when the payload can be read and the task has a handler;
* `retryCopy_spec`, `deadLetterCopy_spec`: what a copy has in common with its message;
* `process_resolves`: what each outcome comes with.
-/

namespace TaskQueue.Engine

open Script

variable {ν : Type}

/-! ## Looking up handlers -/

/-- The task that was looked up in an exchange, and whether it has a handler. -/
def Exchange.lookup? : Exchange (Answer ν) → Option (String × Bool)
  | ⟨.handles task, handled⟩ => some (task, handled)
  | _ => none

/-- The tasks that were looked up, with the answers. -/
def Exchanges.lookups (es : Exchanges ν) : List (String × Bool) := es.filterMap Exchange.lookup?

@[simp] theorem Exchanges.lookups_append (es es' : Exchanges ν) :
    lookups (es ++ es') = lookups es ++ lookups es' := List.filterMap_append

theorem Exchanges.mem_lookups {es : Exchanges ν} {task : String} {handled : Bool} :
    (task, handled) ∈ lookups es ↔ ⟨.handles task, handled⟩ ∈ es := by
  unfold lookups
  rw [List.mem_filterMap]
  constructor
  · rintro ⟨⟨r, x⟩, he, hx⟩
    cases r with
    | handles t =>
      cases hx
      exact he
    | _ => cases hx
  · exact fun h => ⟨_, h, rfl⟩

/-- Whatever is answered to the program, it looks up no task. -/
def LooksUpNothing {α : Type} (s : Program ν α) : Prop :=
  ∀ es a, s.Ends es a → Exchanges.lookups es = []

/-- What asks for no such thing looks up nothing. -/
theorem LooksUpNothing.of_asks {α : Type} {P : Request → Prop} {s : Program ν α} (hs : s.Asks P)
    (h : ∀ task, ¬ P (.handles task)) : LooksUpNothing s := by
  intro es a hends
  refine List.filterMap_eq_nil_iff.mpr fun e he => ?_
  have hasked := hs.of_mem hends.begins e he
  obtain ⟨r, x⟩ := e
  cases r with
  | handles task => exact absurd hasked (h task)
  | _ => rfl

end TaskQueue.Engine

namespace TaskQueue.Worker

open Time Text Engine Retry Script

variable {ν : Type} {c : Config} {d : Delivery} {t : Trail}

/-- The parts of processing look up nothing. -/
theorem looksUpNothing_of_asks {α : Type} {s : Program ν α} (h : s.Asks (Concerns d)) :
    LooksUpNothing s := .of_asks h nofun

section

variable [Number.Arithmetic ν] {p : Policy ν} {draw : Draw ν} {token : CancelToken} {id : String}

theorem runTask_runs {payload : Payload} {es : Exchanges ν} {r : Resolution}
    (h : (runTask c draw token d p id t payload).Ends es r) :
    ∃ run : TaskRun, run.payload = payload ∧ es.runs = [run] := by
  unfold runTask at h
  simp only [request_bind, ends_ask_iff] at h
  obtain ⟨startedAt, es₁, rfl, ending, es₂, rfl, h⟩ := h
  refine ⟨⟨contextOf p token d id, payload, ending⟩, rfl, ?_⟩
  -- nothing runs after the handler
  suffices hidle : Exchanges.runs es₂ = [] from congrArg (_ :: ·) hidle
  cases hend : ending.error? with
  | none =>
    simp only [hend, ends_ask_iff] at h
    obtain ⟨x, es₃, rfl, h⟩ := h
    cases x with
    | error e =>
      simp only [pure_eq_done, ends_done_iff] at h
      obtain ⟨rfl, -⟩ := h
      rfl
    | ok u =>
      simp only [ends_ask_iff] at h
      obtain ⟨u', es₄, rfl, h⟩ := h
      exact (conclude_ends h).2.2.1.runs
  | some error =>
    simp only [hend, ends_ask_iff] at h
    obtain ⟨failedAt, es₃, rfl, u, es₄, rfl, h⟩ := h
    exact (handleFailure_ends rfl rfl h).1.runs

/-- How the handler for a delivery was looked up, and whether it ran then. -/
inductive LookedUp (d : Delivery) (es : Exchanges ν) : Prop
  | unread {e : PayloadError} (unread : Payload.ofWire d.message.payload = .error e)
      (unasked : Exchanges.lookups es = []) (idle : Exchanges.runs es = [])
  | unhandled {payload : Payload} (read : Payload.ofWire d.message.payload = .ok payload)
      (asked : Exchanges.lookups es = [(d.message.key, false)]) (idle : Exchanges.runs es = [])
  | handled {run : TaskRun} (read : Payload.ofWire d.message.payload = .ok run.payload)
      (asked : Exchanges.lookups es = [(d.message.key, true)]) (ran : Exchanges.runs es = [run])

theorem resolve_lookups {es : Exchanges ν} {r : Resolution}
    (h : (resolve c draw token d p id t).Ends es r) : LookedUp d es := by
  unfold resolve at h
  cases hread : Payload.ofWire d.message.payload with
  | error e =>
    simp only [hread, request_bind, ends_ask_iff] at h
    obtain ⟨failedAt, es₁, rfl, u, es₂, rfl, h⟩ := h
    obtain ⟨now, x, -, -, hq, -⟩ := deadLetter_ends h
    exact .unread hread (looksUpNothing_of_asks (deadLetter_asks d _ _) es₂ r h) hq.runs
  | ok payload =>
    simp only [hread, request_bind, ends_ask_iff] at h
    obtain ⟨parsedAt, es₁, rfl, handled, es₂, rfl, h⟩ := h
    cases handled with
    | true =>
      rw [if_pos rfl] at h
      have hnone := looksUpNothing_of_asks (runTask_asks d c draw token p _ id payload) es₂ r h
      obtain ⟨run, hpayload, hruns⟩ := runTask_runs h
      exact .handled (hread.trans (congrArg _ hpayload.symm)) (congrArg (_ :: ·) hnone) hruns
    | false =>
      rw [if_neg Bool.false_ne_true] at h
      have hnone := looksUpNothing_of_asks (resolveUnknown_asks d c) es₂ r h
      exact .unhandled hread (congrArg (_ :: ·) hnone) (resolveUnknown_ends h).1.runs

/-- **A task is looked up once**, when the payload can be read, and its handler runs just when it
has one. -/
theorem process_lookups {es : Exchanges ν} {r : Resolution}
    (h : (process c draw token d).Ends es r) : LookedUp d es := by
  obtain ⟨receivedAt, p, es₁, es₂, id, rfl, hid, h⟩ := process_ends_iff.mp h
  have hlookups : Exchanges.lookups ((⟨.count .processed, ()⟩ : Exchange (Answer ν)) ::
      ⟨.now, receivedAt⟩ :: ⟨.policy, p⟩ :: (es₁ ++ es₂)) = Exchanges.lookups es₂ := by
    have happend := Exchanges.lookups_append es₁ es₂
    rw [looksUpNothing_of_asks (identify_asks d d.message) es₁ id hid, List.nil_append] at happend
    exact happend
  have hruns : Exchanges.runs ((⟨.count .processed, ()⟩ : Exchange (Answer ν)) ::
      ⟨.now, receivedAt⟩ :: ⟨.policy, p⟩ :: (es₁ ++ es₂)) = Exchanges.runs es₂ := by
    have happend := Exchanges.runs_append es₁ es₂
    rw [(identify_ends hid).2.1, List.nil_append] at happend
    exact happend
  cases resolve_lookups h with
  | unread unread unasked idle =>
    exact .unread unread (hlookups.trans unasked) (hruns.trans idle)
  | unhandled read asked idle => exact .unhandled read (hlookups.trans asked) (hruns.trans idle)
  | handled read asked ran => exact .handled read (hlookups.trans asked) (hruns.trans ran)

end

/-! ## Copies -/

/-- The copy is the message except for some headers. -/
structure SameBut (names : List String) (m copy : Message) : Prop where
  key : copy.key = m.key
  payload : copy.payload = m.payload
  others : ∀ name ∉ names, copy.header? name = m.header? name

/-- A copy of a copy is the message except for the headers that differ at either step. -/
theorem SameBut.trans {names names' all : List String} {m₀ m copy : Message}
    (h : SameBut names m₀ m) (h' : SameBut names' m copy) (hsub : names ⊆ all)
    (hsub' : names' ⊆ all) : SameBut all m₀ copy where
  key := h'.key.trans h.key
  payload := h'.payload.trans h.payload
  others name hname :=
    (h'.others name fun hn => hname (hsub' hn)).trans (h.others name fun hn => hname (hsub hn))

theorem header?_setHeaders_of_not_mem {m : Message} {hs : List (String × String)} {name : String}
    (h : name ∉ hs.map Prod.fst) : (m.setHeaders hs).header? name = m.header? name := by
  rw [Message.header?_setHeaders]
  induction hs with
  | nil => rfl
  | cons e hs ih =>
    rw [List.map_cons, List.mem_cons, not_or] at h
    rw [List.foldl_cons, if_neg h.1]
    exact ih h.2

/-- The headers that differ between a message and its copy for a retry. -/
def retryHeaders : List String :=
  [Header.promotedAt, Header.retryAttempt, Header.scheduledFor, Header.scheduledAt,
    Header.backoffMillis, Header.correlationId, Header.lastError, Header.firstSeenAt,
    Header.taskName]

/-- The headers that differ between a message and its dead letter. -/
def deadLetterHeaders : List String :=
  [Header.error, Header.retryCount, Header.fromOffset, Header.fromTopic, Header.correlationId,
    Header.metadata, Header.deadLetteredAt]

/-- The copy of a message that has failed `n` times, the last time with `error`, and waits for its
next run. -/
structure RetryOf (d : Delivery) (id : String) (seen : Instant) (n : Nat) (error : String)
    (backoff : Span) (due : Instant) (copy : Message) : Prop
    extends SameBut retryHeaders d.message copy where
  attempt : copy.header? Header.retryAttempt = some n.repr
  lastError : copy.header? Header.lastError = some error
  backoffMillis : copy.header? Header.backoffMillis = some backoff.millis.repr
  scheduledFor : copy.header? Header.scheduledFor = some due.renderMillis
  scheduledAt : copy.header? Header.scheduledAt = some due.seconds.repr
  correlationId : copy.header? Header.correlationId = some id
  firstSeenAt : copy.header? Header.firstSeenAt = some seen.renderMillis
  taskName : copy.header? Header.taskName = some d.message.key
  promotedAt : copy.header? Header.promotedAt = none

/-- The dead letter of a message that has failed `n` times, the last time with `error`. -/
structure DeadLetterOf (d : Delivery) (id : String) (seen : Instant) (n : Nat) (error : String)
    (now : Instant) (copy : Message) : Prop extends SameBut deadLetterHeaders d.message copy where
  reason : copy.header? Header.error = some error
  retryCount : copy.header? Header.retryCount = some n.repr
  fromOffset : copy.header? Header.fromOffset = some d.position.offset
  fromTopic : copy.header? Header.fromTopic = some d.position.topic
  correlationId : copy.header? Header.correlationId = some id
  deadLetteredAt : copy.header? Header.deadLetteredAt = some now.renderMillis
  metadata : ∃ t, TrailOf d id seen n t ∧ t.lastError = some error ∧
    copy.header? Header.metadata = some t.render

section

variable {id error : String} {seen now due : Instant} {n : Nat} {backoff : Span}

theorem retryCopy_spec (ht : TrailOf d id seen n t) (he : t.lastError = some error) :
    RetryOf d id seen n error backoff due (retryCopy d.message t backoff due) := by
  have hset (name : String) : (retryCopy d.message t backoff due).header? name = _ :=
    Message.header?_setHeaders _ _ name
  obtain ⟨rfl, -, -, -, rfl, rfl⟩ := ht
  exact {
    key := key_retryCopy
    payload := payload_retryCopy
    others := fun name hname => by
      obtain ⟨hkept, hunset⟩ := not_or.mp (mt List.mem_cons.mpr hname)
      rw [retryCopy, header?_setHeaders_of_not_mem hunset, Message.header?_dropHeader, if_neg hkept]
    attempt := hset _
    lastError := by rw [hset, he]; rfl
    backoffMillis := hset _
    scheduledFor := hset _
    scheduledAt := hset _
    correlationId := hset _
    firstSeenAt := hset _
    taskName := hset _
    promotedAt := by
      have hunset : Header.promotedAt ∉ retryHeaders.tail := by decide
      rw [retryCopy, header?_setHeaders_of_not_mem hunset, Message.header?_dropHeader, if_pos rfl] }

theorem deadLetterCopy_spec (ht : TrailOf d id seen n t) (he : t.lastError = some error) :
    DeadLetterOf d id seen n error now (deadLetterCopy d t now) := by
  have hset (name : String) : (deadLetterCopy d t now).header? name = _ :=
    Message.header?_setHeaders _ _ name
  have hmetadata : ∃ t', TrailOf d id seen n t' ∧ t'.lastError = some error ∧
      (deadLetterCopy d t now).header? Header.metadata = some t'.render :=
    ⟨t, ht, he, hset _⟩
  obtain ⟨rfl, -, -, -, rfl, rfl⟩ := ht
  exact {
    key := Message.key_setHeaders _ _
    payload := Message.payload_setHeaders _ _
    others := fun name hname => header?_setHeaders_of_not_mem hname
    reason := by rw [hset, he]; rfl
    retryCount := hset _
    fromOffset := hset _
    fromTopic := hset _
    correlationId := hset _
    deadLetteredAt := hset _
    metadata := hmetadata }

end

/-! ## Undisturbed runs -/

/-- Nothing happens to a worker but that the handler of a delivery ends in some way: there is one
policy, the task has a handler, the identifier is known, and what is sent to the broker is
`sent`. -/
structure Undisturbed (p : Policy ν) (d : Delivery) (run : TaskRun) (sent es : Exchanges ν) :
    Prop where
  policy : ∀ p', ⟨.policy, p'⟩ ∈ es → p' = p
  handled : ⟨.handles d.message.key, false⟩ ∉ es
  ran : es.runs = [run]
  newIds : es.newIds = []
  transport : es.transport = sent

section

variable [Number.Arithmetic ν] {p : Policy ν} {draw : Draw ν} {token : CancelToken}
  {id error : String} {now due : Instant} {payload : Payload} {ending : HandlerEnd} {backoff : Span}

variable (c d p draw token)

/-- A run that succeeds is acknowledged. -/
theorem exists_succeeded (named : d.message.header? Header.correlationId = some id)
    (read : Payload.ofWire d.message.payload = .ok payload) :
    ∃ es : Exchanges ν, (process c draw token d).Ends es (.ok .succeeded) ∧
      Undisturbed p d ⟨contextOf p token d id, payload, .succeeded⟩ [⟨.ack d, .ok ()⟩] es := by
  refine ⟨⟨.count .processed, ()⟩ :: ⟨.now, .epoch⟩ :: ⟨.policy, p⟩ :: ([] ++ [⟨.now, .epoch⟩,
    ⟨.handles d.message.key, true⟩, ⟨.now, .epoch⟩,
    ⟨.handle (contextOf p token d id) payload, .succeeded⟩, ⟨.ack d, .ok ()⟩,
    ⟨.forget d.position.render, ()⟩, ⟨.count .succeeded, ()⟩]), ?_, ?_⟩
  · refine process_ends_iff.mpr ⟨_, _, _, _, id, rfl, identify_named named, ?_⟩
    unfold resolve
    simp only [read]
    exact .ask _ _ (.ask _ _ (.ask _ _ (.ask _ _ (.ask _ _ (.ask _ _ (.ask _ _ (.done _)))))))
  · exact ⟨by simp, by simp, rfl, rfl, rfl⟩

/-- A run that fails and is retried is followed by a copy that waits. -/
theorem exists_retried (named : d.message.header? Header.correlationId = some id)
    (read : Payload.ofWire d.message.payload = .ok payload) (failed : ending.error? = some error)
    (again : p.retries ((priorFailures p d.message).toNat + 1) error = true)
    (wait : p.backoff draw ((priorFailures p d.message).toNat + 1) = .ok backoff)
    (onTime : dueAfter now backoff = some due) :
    ∃ (es : Exchanges ν) (copy : Message), (process c draw token d).Ends es (.ok .retried) ∧
      Undisturbed p d ⟨contextOf p token d id, payload, ending⟩
        [⟨.publish c.topics.delayed copy, .ok ()⟩, ⟨.ack d, .ok ()⟩] es ∧
      RetryOf d id (firstSeen d.message now) ((priorFailures p d.message).toNat + 1) error backoff
        due copy := by
  have trail := failedTrail_trailOf p d id error now
  rw [← trail.failures] at again wait
  have run : (process c draw token d).Ends _ _ :=
    process_failed (identify_named named) read failed (handleFailure_retried again wait onTime)
  exact ⟨_, _, run, ⟨by simp, by simp, rfl, rfl, rfl⟩,
    retryCopy_spec (trail.record .retried now) rfl⟩

/-- A run that fails and is not retried is followed by a dead letter. -/
theorem exists_givenUp (now : Instant)
    (named : d.message.header? Header.correlationId = some id)
    (read : Payload.ofWire d.message.payload = .ok payload) (failed : ending.error? = some error)
    (again : p.retries ((priorFailures p d.message).toNat + 1) error = false) :
    ∃ (es : Exchanges ν) (copy : Message), (process c draw token d).Ends es (.ok .deadLettered) ∧
      Undisturbed p d ⟨contextOf p token d id, payload, ending⟩
        [⟨.publish c.topics.deadLetter copy, .ok ()⟩, ⟨.ack d, .ok ()⟩] es ∧
      DeadLetterOf d id (firstSeen d.message now) ((priorFailures p d.message).toNat + 1) error now
        copy := by
  have trail := failedTrail_trailOf p d id error now
  rw [← trail.failures] at again
  have run : (process c draw token d).Ends _ _ :=
    process_failed (identify_named named) read failed (handleFailure_givenUp now again)
  exact ⟨_, _, run, ⟨by simp, by simp, rfl, rfl, rfl⟩,
    deadLetterCopy_spec (trail.record .deadLettered now) rfl⟩

/-- A run that fails and is not retried, when the dead letter is refused. -/
theorem exists_refused (now : Instant) (e : TransportError)
    (named : d.message.header? Header.correlationId = some id)
    (read : Payload.ofWire d.message.payload = .ok payload) (failed : ending.error? = some error)
    (again : p.retries ((priorFailures p d.message).toNat + 1) error = false) :
    ∃ (es : Exchanges ν) (copy : Message),
      (process c draw token d).Ends es (.error (.transport e)) ∧
      Undisturbed p d ⟨contextOf p token d id, payload, ending⟩
        [⟨.publish c.topics.deadLetter copy, .error e⟩] es := by
  rw [← (failedTrail_trailOf p d id error now).failures] at again
  have run : (process c draw token d).Ends _ _ :=
    process_failed (identify_named named) read failed (handleFailure_refused now e again)
  exact ⟨_, _, run, ⟨by simp, by simp, rfl, rfl, rfl⟩⟩

end

/-! ## Surroundings without failures -/

/-- An answer to a worker whose broker does not fail, by the policy in force and the tasks that have
a handler. -/
def Regular (p : Policy ν) (handled : String → Bool) : Exchange (Answer ν) → Prop
  | ⟨.policy, p'⟩ => p' = p
  | ⟨.handles task, b⟩ => b = handled task
  | ⟨.publish _ _, x⟩ => x = .ok ()
  | ⟨.ack _, x⟩ => x = .ok ()
  | ⟨.reject _ _, x⟩ => x = .ok ()
  | _ => True

/-- All answers are such. -/
def Smooth (p : Policy ν) (handled : String → Bool) (es : Exchanges ν) : Prop :=
  ∀ e ∈ es, Regular p handled e

/-- **What an outcome comes with** when a message has failed `n` times before. -/
inductive Course [Number.Arithmetic ν] (c : Config) (draw : Draw ν) (token : CancelToken)
    (d : Delivery) (p : Policy ν) (id : String) (seen : Instant) (es : Exchanges ν) :
    Outcome → Prop
  /-- The payload cannot be read: a dead letter. -/
  | unreadable {e : PayloadError} {now : Instant} {copy : Message}
      (unread : Payload.ofWire d.message.payload = .error e) (idle : es.runs = [])
      (clock : ⟨.now, now⟩ ∈ es)
      (written : DeadLetterOf d id seen ((priorFailures p d.message).toNat + 1)
        ("malformed payload: " ++ e.message) now copy)
      (sent : es.transport = [⟨.publish c.topics.deadLetter copy, .ok ()⟩, ⟨.ack d, .ok ()⟩]) :
      Course c draw token d p id seen es .deadLettered
  /-- The task has no handler. -/
  | skipped {payload : Payload} (read : Payload.ofWire d.message.payload = .ok payload)
      (idle : es.runs = []) (rule : c.unknownTask = .skip)
      (sent : es.transport = [⟨.ack d, .ok ()⟩]) : Course c draw token d p id seen es .skipped
  /-- The task has no handler. -/
  | requeued {payload : Payload} (read : Payload.ofWire d.message.payload = .ok payload)
      (idle : es.runs = []) (rule : c.unknownTask = .requeue)
      (sent : es.transport = [⟨.reject d true, .ok ()⟩]) :
      Course c draw token d p id seen es .requeued
  | succeeded {payload : Payload} (read : Payload.ofWire d.message.payload = .ok payload)
      (ran : es.runs = [⟨contextOf p token d id, payload, .succeeded⟩])
      (sent : es.transport = [⟨.ack d, .ok ()⟩]) : Course c draw token d p id seen es .succeeded
  /-- The handler failed and the policy grants another run. -/
  | retried {payload : Payload} {ending : HandlerEnd} {error : String} {backoff : Span}
      {now due : Instant} {copy : Message}
      (read : Payload.ofWire d.message.payload = .ok payload)
      (ran : es.runs = [⟨contextOf p token d id, payload, ending⟩])
      (failed : ending.error? = some error)
      (again : p.retries ((priorFailures p d.message).toNat + 1) error = true)
      (wait : p.backoff draw ((priorFailures p d.message).toNat + 1) = .ok backoff)
      (clock : ⟨.now, now⟩ ∈ es) (onTime : dueAfter now backoff = some due)
      (written : RetryOf d id seen ((priorFailures p d.message).toNat + 1) error backoff due copy)
      (sent : es.transport = [⟨.publish c.topics.delayed copy, .ok ()⟩, ⟨.ack d, .ok ()⟩]) :
      Course c draw token d p id seen es .retried
  /-- The handler failed and the policy grants no other run: a dead letter. -/
  | givenUp {payload : Payload} {ending : HandlerEnd} {error : String} {now : Instant}
      {copy : Message} (read : Payload.ofWire d.message.payload = .ok payload)
      (ran : es.runs = [⟨contextOf p token d id, payload, ending⟩])
      (failed : ending.error? = some error)
      (again : p.retries ((priorFailures p d.message).toNat + 1) error = false)
      (clock : ⟨.now, now⟩ ∈ es)
      (written : DeadLetterOf d id seen ((priorFailures p d.message).toNat + 1) error now copy)
      (sent : es.transport = [⟨.publish c.topics.deadLetter copy, .ok ()⟩, ⟨.ack d, .ok ()⟩]) :
      Course c draw token d p id seen es .deadLettered

/-- Random jitter apart, a backoff always has a value. -/
theorem exists_backoff [Number.Arithmetic ν] {p : Policy ν} (mode : p.jitterMode = .deterministic)
    (draw : Draw ν) (n : Nat) : ∃ backoff, p.backoff draw n = .ok backoff := by
  unfold Policy.backoff
  split
  · exact ⟨_, rfl⟩
  · simp only [Policy.jitter, mode]
    exact ⟨_, rfl⟩

/-- Three runs, the second one a second after the first, over the rational numbers. -/
def threeRuns : Policy Rat := ⟨3, .ofSeconds 1, .ofSeconds 60, 2, 0, .deterministic, [], []⟩

theorem threeRuns_backoff (draw : Draw Rat) : threeRuns.backoff draw 1 = .ok (.ofSeconds 1) := by
  have hpow : Number.Arithmetic.pow (2 : Rat) 0 = 1 := by
    unfold Number.Arithmetic.pow Number.Arithmetic.powFrom
    rfl
  simp [Policy.backoff, Policy.baseDelay, Policy.jitter, threeRuns, hpow]
  decide +kernel

/-- As `threeRuns`, with one run less. -/
def twoRuns : Policy Rat := { threeRuns with maxRetries := 2 }

theorem twoRuns_backoff (draw : Draw Rat) : twoRuns.backoff draw 1 = .ok (.ofSeconds 1) :=
  threeRuns_backoff draw

section

variable {p : Policy ν} {handled : String → Bool} {es : Exchanges ν}

theorem Smooth.published (h : Smooth p handled es) {topic : String} {m : Message}
    {x : Except TransportError Unit} (he : ⟨.publish topic m, x⟩ ∈ es.transport) : x = .ok () :=
  h _ (List.mem_filter.mp he).1

theorem Smooth.acked (h : Smooth p handled es) {x : Except TransportError Unit}
    (he : ⟨.ack d, x⟩ ∈ es.transport) : x = .ok () :=
  h _ (List.mem_filter.mp he).1

theorem Smooth.rejected (h : Smooth p handled es) {x : Except TransportError Unit} {requeue : Bool}
    (he : ⟨.reject d requeue, x⟩ ∈ es.transport) : x = .ok () :=
  h _ (List.mem_filter.mp he).1

theorem Smooth.routed (h : Smooth p handled es) {topic : String} {m : Message}
    {x : Except TransportError Unit} (hr : Routed d topic m es.transport x) : x = .ok () := by
  generalize hes : es.transport = sent at hr
  cases hr with
  | refused e => exact h.published (hes ▸ List.mem_cons_self)
  | acked =>
    have hack : ⟨.ack d, x⟩ ∈ es.transport := by
      rw [hes]
      exact .tail _ (.head _)
    exact h.acked hack

end

section

variable [Number.Arithmetic ν] {p : Policy ν} {handled : String → Bool} {es : Exchanges ν}
  {draw : Draw ν} {token : CancelToken} {id : String} {seen : Instant} {r : Resolution}

/-- **An outcome comes with its course.** -/
theorem Processed.course {o : Outcome} (h : Processed c draw token d p id seen es (.ok o)) :
    Course c draw token d p id seen es o := by
  generalize hr : (Except.ok o : Resolution) = r at h
  have routed {o' : Outcome} {topic : String} {m : Message} {x : Except TransportError Unit}
      (hr : .ok o = settled o' x) (h : Routed d topic m es.transport x) :
      o = o' ∧ es.transport = [⟨.publish topic m, .ok ()⟩, ⟨.ack d, .ok ()⟩] := by
    obtain ⟨rfl, rfl⟩ := settled_eq_ok_iff.mp hr.symm
    exact ⟨rfl, h.of_ok⟩
  cases h with
  | malformed unread idle trail lastError clock sent =>
    obtain ⟨rfl, sent⟩ := routed hr sent
    exact .unreadable unread idle clock (deadLetterCopy_spec trail lastError) sent
  | skipped read idle unhandled rule acked =>
    obtain ⟨rfl, rfl⟩ := settled_eq_ok_iff.mp hr.symm
    exact .skipped read idle rule acked
  | requeued read idle unhandled rule rejected =>
    obtain ⟨rfl, rfl⟩ := settled_eq_ok_iff.mp hr.symm
    exact .requeued read idle rule rejected
  | succeeded read ran acked =>
    obtain ⟨rfl, rfl⟩ := settled_eq_ok_iff.mp hr.symm
    exact .succeeded read ran acked
  | retried f again wait clock onTime sent =>
    obtain ⟨rfl, sent⟩ := routed hr sent
    exact .retried f.read f.ran f.failed again wait clock onTime
      (retryCopy_spec f.trail f.lastError) sent
  | neverDue f again wait clock never idle => cases hr
  | noBackoff f again wait idle => cases hr
  | givenUp f again clock sent =>
    obtain ⟨rfl, sent⟩ := routed hr sent
    exact .givenUp f.read f.ran f.failed again clock (deadLetterCopy_spec f.trail f.lastError) sent

/-- A retry is granted, but its due time is no instant. -/
structure NeverDue (p : Policy ν) (draw : Draw ν) (d : Delivery) (es : Exchanges ν)
    (r : Resolution) : Prop where
  never : ∃ now backoff, ⟨.now, now⟩ ∈ es ∧
    p.backoff draw ((priorFailures p d.message).toNat + 1) = .ok backoff ∧
    dueAfter now backoff = none
  overflow : r = .error (.overflow .beyondRange)

/-- With a broker that does not fail, processing comes to an outcome. -/
theorem Processed.exists_outcome (h : Processed c draw token d p id seen es r)
    (smooth : Smooth p handled es) (mode : p.jitterMode = .deterministic)
    (due : ¬ NeverDue p draw d es r) : ∃ o, r = .ok o := by
  cases h with
  | malformed unread idle trail lastError clock sent =>
    obtain rfl := smooth.routed sent
    exact ⟨_, rfl⟩
  | skipped read idle unhandled rule acked =>
    obtain rfl := smooth.acked (acked ▸ List.mem_cons_self)
    exact ⟨_, rfl⟩
  | requeued read idle unhandled rule rejected =>
    obtain rfl := smooth.rejected (rejected ▸ List.mem_cons_self)
    exact ⟨_, rfl⟩
  | succeeded read ran acked =>
    obtain rfl := smooth.acked (acked ▸ List.mem_cons_self)
    exact ⟨_, rfl⟩
  | retried f again wait clock onTime sent =>
    obtain rfl := smooth.routed sent
    exact ⟨_, rfl⟩
  | neverDue f again wait clock never idle =>
    exact absurd ⟨⟨_, _, clock, wait, never⟩, rfl⟩ due
  | noBackoff f again wait idle =>
    obtain ⟨backoff, hb⟩ := exists_backoff mode draw ((priorFailures p d.message).toNat + 1)
    rw [hb] at wait
    cases wait
  | givenUp f again clock sent =>
    obtain rfl := smooth.routed sent
    exact ⟨_, rfl⟩

/-! ## The result -/

/-- The handler ran just when the payload could be read and the task has one, at most once, and it
was told how often the task has failed before. -/
structure RanOnce (d : Delivery) (p : Policy ν) (handled : String → Bool) (es : Exchanges ν) :
    Prop where
  ran_iff : es.runs ≠ [] ↔
    (∃ payload, Payload.ofWire d.message.payload = .ok payload) ∧ handled d.message.key = true
  once : es.runs.length ≤ 1
  told : ∀ run ∈ es.runs, Payload.ofWire d.message.payload = .ok run.payload ∧
    run.context.task = d.message.key ∧
    run.context.failures.toNat = min (claimedFailures d.message) (max p.maxRetries.toNat 1 - 1)

/-- The delivery was settled once, after the one copy that may have been published. -/
structure SettledOnce (d : Delivery) (es : Exchanges ν) : Prop where
  transport : ∃ copies last, es.transport = copies ++ [last] ∧ copies.length ≤ 1 ∧
    (∀ e ∈ copies, ∃ topic m, e = ⟨.publish topic m, .ok ()⟩) ∧
    (last = ⟨.ack d, .ok ()⟩ ∨ last = ⟨.reject d true, .ok ()⟩)

omit [Number.Arithmetic ν] in
theorem LookedUp.ran_iff (h : LookedUp d es) (smooth : Smooth p handled es) :
    es.runs ≠ [] ↔
      (∃ payload, Payload.ofWire d.message.payload = .ok payload) ∧
        handled d.message.key = true := by
  have answered {b : Bool} (asked : Exchanges.lookups es = [(d.message.key, b)]) :
      b = handled d.message.key :=
    smooth _ (Exchanges.mem_lookups.mp (asked ▸ List.mem_cons_self))
  cases h with
  | unread unread unasked idle => simp [unread, idle]
  | unhandled read asked idle => simp [← answered asked, idle]
  | handled read asked ran => simp [← answered asked, read, ran]

theorem Course.ranOnce {o : Outcome} (h : Course c draw token d p id seen es o)
    (ran_iff : es.runs ≠ [] ↔ (∃ payload, Payload.ofWire d.message.payload = .ok payload) ∧
      handled d.message.key = true) : RanOnce d p handled es := by
  have idle (hidle : es.runs = []) : RanOnce d p handled es :=
    ⟨ran_iff, by rw [hidle]; exact Nat.zero_le 1, by rw [hidle]; exact nofun⟩
  have ran {payload : Payload} {ending : HandlerEnd}
      (read : Payload.ofWire d.message.payload = .ok payload)
      (hran : es.runs = [⟨contextOf p token d id, payload, ending⟩]) : RanOnce d p handled es := by
    refine ⟨ran_iff, by rw [hran]; exact Nat.le_refl 1, ?_⟩
    rw [hran, List.forall_mem_singleton]
    refine ⟨read, rfl, ?_⟩
    show (priorFailures p d.message).toNat = _
    rw [toNat_priorFailures]
    omega
  cases h with
  | unreadable _ hidle => exact idle hidle
  | skipped _ hidle => exact idle hidle
  | requeued _ hidle => exact idle hidle
  | succeeded read hran => exact ran read hran
  | retried read hran => exact ran read hran
  | givenUp read hran => exact ran read hran

theorem Course.settledOnce {o : Outcome} (h : Course c draw token d p id seen es o) :
    SettledOnce d es := by
  have copied {topic : String} {m : Message}
      (sent : es.transport = [⟨.publish topic m, .ok ()⟩, ⟨.ack d, .ok ()⟩]) : SettledOnce d es :=
    ⟨[⟨.publish topic m, .ok ()⟩], _, sent, Nat.le_refl 1,
      List.forall_mem_singleton.mpr ⟨topic, m, rfl⟩, .inl rfl⟩
  have alone {last : Exchange (Answer ν)} (sent : es.transport = [last])
      (hlast : last = ⟨.ack d, .ok ()⟩ ∨ last = ⟨.reject d true, .ok ()⟩) : SettledOnce d es :=
    ⟨[], last, sent, Nat.zero_le 1, List.forall_mem_nil _, hlast⟩
  cases h with
  | unreadable _ _ _ _ sent => exact copied sent
  | skipped _ _ _ sent => exact alone sent (.inl rfl)
  | requeued _ _ _ sent => exact alone sent (.inr rfl)
  | succeeded _ _ sent => exact alone sent (.inl rfl)
  | retried _ _ _ _ _ _ _ _ sent => exact copied sent
  | givenUp _ _ _ _ _ _ sent => exact copied sent

omit [Number.Arithmetic ν] in
/-- A script comes to its end among surroundings that do not fail. -/
theorem exists_smooth {α : Type} (p : Policy ν) (handled : String → Bool) (s : Program ν α) :
    ∃ es a, s.Ends es a ∧ Smooth p handled es := by
  have answer (r : Request) : ∃ x, Regular p handled ⟨r, x⟩ := by
    cases r with
    | publish t m => exact ⟨.ok (), rfl⟩
    | subscribe t g => exact ⟨.ok (), trivial⟩
    | receive wait => exact ⟨.nothing, trivial⟩
    | ack d => exact ⟨.ok (), rfl⟩
    | reject d requeue => exact ⟨.ok (), rfl⟩
    | policy => exact ⟨p, rfl⟩
    | now => exact ⟨.epoch, trivial⟩
    | handles task => exact ⟨handled task, rfl⟩
    | handle c p => exact ⟨.succeeded, trivial⟩
    | newId => exact ⟨"", trivial⟩
    | isCancelled => exact ⟨false, trivial⟩
    | tick => exact ⟨false, trivial⟩
    | pause wait => exact ⟨(), trivial⟩
    | remember p t => exact ⟨(), trivial⟩
    | forget p => exact ⟨(), trivial⟩
    | count c => exact ⟨(), trivial⟩
    | fire t => exact ⟨(), trivial⟩
  obtain ⟨es, a, -, hends, hsmooth⟩ := Script.exists_ends
    (R := fun (_ : Unit) es _ => Smooth p handled es)
    (fun _ => List.forall_mem_nil _)
    (fun _ r => by
      obtain ⟨x, hx⟩ := answer r
      exact ⟨x, (), fun es _ hes => List.forall_mem_cons.mpr ⟨hx, hes⟩⟩) s ()
  exact ⟨es, a, hends, hsmooth⟩

/-- **What one delivery turns into** with a broker that does not fail: processing comes to its end,
and unless the due time of a retry is no instant, it comes to an outcome with the copy and the
settlement of its course. -/
theorem process_resolves (mode : p.jitterMode = .deterministic) :
    (∃ es r, (process c draw token d).Ends es r ∧ Smooth p handled es) ∧
    ∀ es r, (process c draw token d).Ends es r → Smooth p handled es →
      ¬ NeverDue p draw d es r →
      ∃ o id receivedAt, r = .ok o ∧ ⟨.now, receivedAt⟩ ∈ es ∧ Identified d id es ∧
        RanOnce d p handled es ∧ SettledOnce d es ∧
        Course c draw token d p id (firstSeen d.message receivedAt) es o := by
  refine ⟨exists_smooth p handled _, fun es r h smooth due => ?_⟩
  obtain ⟨p', id, receivedAt, hp, hnow, hid, hprocessed⟩ := process_ends h
  obtain rfl : p' = p := smooth _ hp
  obtain ⟨o, rfl⟩ := hprocessed.exists_outcome smooth mode due
  have hcourse := hprocessed.course
  exact ⟨o, id, receivedAt, rfl, hnow, hid, hcourse.ranOnce ((process_lookups h).ran_iff smooth),
    hcourse.settledOnce, hcourse⟩

end

/-- The first failure of a task that may fail three times is followed by a copy that waits. -/
theorem retry_of_first_failure :
    ∃ (c : Config) (d : Delivery) (p : Policy Rat) (es : Exchanges Rat) (copy : Message)
      (i : String) (seen : Instant),
      (process c id .never d).Ends es (.ok .retried) ∧ Smooth p (fun _ => true) es ∧
      es.transport = [⟨.publish c.topics.delayed copy, .ok ()⟩, ⟨.ack d, .ok ()⟩] ∧
      RanOnce d p (fun _ => true) es ∧ Course c id .never d p i seen es .retried := by
  let c : Config := ⟨⟨"ready", "waiting", "dead"⟩, "workers", .zero, .skip, .zero, Policy.noRetry⟩
  let p := threeRuns
  let m : Message := (⟨"t", Payload.toWire ∅, ∅⟩ : Message).setHeader Header.correlationId "a"
  let d : Delivery := ⟨⟨"ready", 0, "0"⟩, m, 1⟩
  obtain ⟨due, hdue⟩ : ∃ due, dueAfter .epoch (.ofSeconds 1) = some due := ⟨_, rfl⟩
  let t := failedTrail p d "a" "busy" .epoch
  let copy := retryCopy m (t.record .retried .epoch) (.ofSeconds 1) due
  let es : Exchanges Rat := [⟨.count .processed, ()⟩, ⟨.now, .epoch⟩, ⟨.policy, p⟩, ⟨.now, .epoch⟩,
    ⟨.handles "t", true⟩, ⟨.now, .epoch⟩,
    ⟨.handle (contextOf p .never d "a") ∅, .failed ["busy"]⟩, ⟨.now, .epoch⟩,
    ⟨.remember d.position.render t, ()⟩, ⟨.now, .epoch⟩,
    ⟨.remember d.position.render (t.record .retried .epoch), ()⟩,
    ⟨.publish "waiting" copy, .ok ()⟩, ⟨.ack d, .ok ()⟩, ⟨.forget d.position.render, ()⟩,
    ⟨.count .retried, ()⟩]
  have hid : (identify m : Program Rat String).Ends [] "a" := .done "a"
  have failed : (HandlerEnd.failed ["busy"]).error? = some "busy" := rfl
  have failure : (handleFailure c.topics p id d t).Ends (es.drop 9) (.ok .retried) :=
    handleFailure_retried rfl (threeRuns_backoff id) hdue
  have run : (process c id .never d).Ends es (.ok .retried) :=
    (process_failed hid rfl failed failure :)
  have smooth : Smooth p (fun _ => true) es := by
    simp [Smooth, es, Regular]
  have mode : p.jitterMode = .deterministic := rfl
  obtain ⟨o, i, receivedAt, ho, -, -, ran, -, course⟩ :=
    (process_resolves mode).2 es _ run smooth fun h => nomatch h.overflow
  cases ho
  exact ⟨c, d, p, es, copy, i, _, run, smooth, rfl, ran, course⟩

end TaskQueue.Worker
