import TaskQueue.Proofs.Worker.Process

/-!
# How a delivery comes to fail

Only a failure lets a worker publish anything: a payload that cannot be read, or a handler that
fails. What the worker has read on the clock by then is what the trail of the message tells, mark by
mark, and the rest is up to the dead letter or the policy.

Results:

* `resolve_failing`, `process_failing`: what comes before the dead letter or the decision of the
  policy;
* `unreadTrail_trailOf`, `ranTrail_trailOf`: what the trail tells by then;
* `process_firstDelivery`: a task that fails the first time it is delivered.
-/

namespace TaskQueue.Worker

open Time Engine Retry Script

variable {ν : Type}

/-- The trail of a message whose payload cannot be read. -/
def unreadTrail (t : Trail) (e : PayloadError) (failedAt : Instant) : Trail :=
  t.recordFailure ("malformed payload: " ++ e.message) failedAt

/-- The trail of a message whose handler has failed. -/
def ranTrail (t : Trail) (error : String) (parsedAt startedAt failedAt : Instant) : Trail :=
  ((t.record .parsed parsedAt).record .dispatched startedAt).recordFailure error failedAt

section

variable {p : Policy ν} {d : Delivery} {id : String} {seen : Instant} {t : Trail}

theorem unreadTrail_trailOf (h : TrailOf d id seen (priorFailures p d.message).toNat t)
    (e : PayloadError) (failedAt : Instant) :
    TrailOf d id seen ((priorFailures p d.message).toNat + 1) (unreadTrail t e failedAt) :=
  h.recordFailure (priorFailures_lt_max p d.message) _ failedAt

theorem ranTrail_trailOf (h : TrailOf d id seen (priorFailures p d.message).toNat t)
    (error : String) (parsedAt startedAt failedAt : Instant) :
    TrailOf d id seen ((priorFailures p d.message).toNat + 1)
      (ranTrail t error parsedAt startedAt failedAt) :=
  ((h.record .parsed parsedAt).record .dispatched startedAt).recordFailure
    (priorFailures_lt_max p d.message) error failedAt

end

/-- **How a delivery comes to fail** once it is identified. The exchanges `rest` are left for the
dead letter or the decision of the policy. -/
inductive Failing [Number.Arithmetic ν] (c : Config) (draw : Draw ν) (token : CancelToken)
    (d : Delivery) (p : Policy ν) (id : String) (t : Trail) (es : Exchanges ν) (r : Resolution) :
    Prop
  /-- The payload cannot be read. -/
  | unread {e : PayloadError} {failedAt : Instant} {rest : Exchanges ν}
      (unread : Payload.ofWire d.message.payload = .error e) (idle : es.runs = [])
      (clock : es.readings = failedAt :: rest.readings) (sent : es.transport = rest.transport)
      (givenUp : (deadLetter c.topics d (unreadTrail t e failedAt)).Ends rest r) :
      Failing c draw token d p id t es r
  /-- The handler fails. -/
  | ran {payload : Payload} {ending : HandlerEnd} {error : String}
      {parsedAt startedAt failedAt : Instant} {rest : Exchanges ν}
      (read : Payload.ofWire d.message.payload = .ok payload)
      (ran : es.runs = [⟨contextOf p token d id, payload, ending⟩])
      (failed : ending.error? = some error)
      (clock : es.readings = parsedAt :: startedAt :: failedAt :: rest.readings)
      (sent : es.transport = rest.transport)
      (decided : (handleFailure c.topics p draw d
        (ranTrail t error parsedAt startedAt failedAt)).Ends rest r) :
      Failing c draw token d p id t es r
  /-- Nothing fails and nothing is published. -/
  | well (silent : ∀ topic m x, ⟨.publish topic m, x⟩ ∉ es.transport)
      (ended : ∀ run ∈ es.runs, run.ending.error? = none) : Failing c draw token d p id t es r

variable [Number.Arithmetic ν] {c : Config} {draw : Draw ν} {token : CancelToken} {d : Delivery}
  {p : Policy ν} {id : String} {t : Trail} {es : Exchanges ν} {r : Resolution}

omit [Number.Arithmetic ν] in
/-- What sends the broker something else than a message publishes nothing. -/
theorem silent_of_sent {e : Exchange (Answer ν)} (h : es.transport = [e])
    (he : ∀ topic m, e.request ≠ .publish topic m) :
    ∀ topic m x, ⟨.publish topic m, x⟩ ∉ es.transport := by
  intro topic m x hmem
  rw [h] at hmem
  exact he topic m (congrArg Exchange.request (List.mem_singleton.mp hmem)).symm

/-- A handler that is run fails or not. -/
theorem runTask_failing {payload : Payload} {parsedAt : Instant}
    (hread : Payload.ofWire d.message.payload = .ok payload)
    (h : (runTask c draw token d p id (t.record .parsed parsedAt) payload).Ends es r) :
    Failing c draw token d p id t
      (⟨.now, parsedAt⟩ :: ⟨.handles d.message.key, true⟩ :: es) r := by
  unfold runTask at h
  simp only [request_bind, ends_ask_iff] at h
  obtain ⟨startedAt, es₁, rfl, ending, es₂, rfl, h⟩ := h
  cases hend : ending.error? with
  | none =>
    simp only [hend, ends_ask_iff] at h
    obtain ⟨x, es₃, rfl, h⟩ := h
    obtain ⟨htransport, hruns⟩ :
        Exchanges.transport es₃ = [] ∧ Exchanges.runs es₃ = [] := by
      cases x with
      | error e =>
        obtain ⟨rfl, -⟩ := ends_done_iff.mp h
        exact ⟨rfl, rfl⟩
      | ok u =>
        simp only [ends_ask_iff] at h
        obtain ⟨u', es₄, rfl, h⟩ := h
        obtain ⟨-, htransport, hquiet, -⟩ := conclude_ends h
        exact ⟨htransport, hquiet.runs⟩
    have hran : Exchanges.runs (⟨.now, parsedAt⟩ :: ⟨.handles d.message.key, true⟩ ::
        ⟨.now, startedAt⟩ :: ⟨.handle (contextOf p token d id) payload, ending⟩ ::
        ⟨.ack d, x⟩ :: es₃ : Exchanges ν) = [⟨contextOf p token d id, payload, ending⟩] :=
      congrArg (_ :: ·) hruns
    refine .well (silent_of_sent (e := ⟨.ack d, x⟩) (congrArg (_ :: ·) htransport) (by simp)) ?_
    rw [hran, List.forall_mem_singleton]
    exact hend
  | some error =>
    simp only [hend, ends_ask_iff] at h
    obtain ⟨failedAt, es₃, rfl, u, rest, rfl, h⟩ := h
    have quiet := (handleFailure_ends rfl rfl h).1
    refine .ran hread (congrArg (_ :: ·) quiet.runs) hend ?_ ?_ h <;> rfl

theorem resolve_failing (h : (resolve c draw token d p id t).Ends es r) :
    Failing c draw token d p id t es r := by
  unfold resolve at h
  cases hread : Payload.ofWire d.message.payload with
  | error e =>
    simp only [hread, request_bind, ends_ask_iff] at h
    obtain ⟨failedAt, es₁, rfl, u, rest, rfl, h⟩ := h
    obtain ⟨now, x, -, -, hquiet, -⟩ := deadLetter_ends h
    refine .unread hread hquiet.runs ?_ ?_ h <;> rfl
  | ok payload =>
    simp only [hread, request_bind, ends_ask_iff] at h
    obtain ⟨parsedAt, es₁, rfl, handled, es₂, rfl, h⟩ := h
    cases handled with
    | true => exact runTask_failing hread h
    | false =>
      obtain ⟨hquiet, x, ⟨-, -, hsent⟩ | ⟨-, -, hsent⟩⟩ := resolveUnknown_ends h
      all_goals
        refine .well (silent_of_sent hsent (by simp)) ?_
        rw [show Exchanges.runs (⟨.now, parsedAt⟩ :: ⟨.handles d.message.key, false⟩ :: es₂ :
          Exchanges ν) = [] from hquiet.runs]
        exact List.forall_mem_nil _

omit [Number.Arithmetic ν] in
theorem identify_readings {m : Message} (h : (identify m : Program ν String).Ends es id) :
    es.readings = [] := by
  rcases identify_ends_iff.mp h with ⟨-, rfl⟩ | ⟨-, rfl⟩ <;> rfl

/-- **Every processing**, up to the dead letter or the decision of the policy: the first reading of
the clock begins the trail, and the exchanges `resolved` go on from there. -/
theorem process_failing (h : (process c draw token d).Ends es r) :
    ∃ p id receivedAt resolved, ⟨.policy, p⟩ ∈ es ∧
      es.readings = receivedAt :: Exchanges.readings resolved ∧
      es.transport = Exchanges.transport resolved ∧ es.runs = Exchanges.runs resolved ∧
      Failing c draw token d p id (firstTrail p d id receivedAt) resolved r := by
  obtain ⟨receivedAt, p, es₁, resolved, id, rfl, hid, h⟩ := process_ends_iff.mp h
  obtain ⟨htransport, hruns, -⟩ := identify_ends hid
  refine ⟨p, id, receivedAt, resolved, .tail _ (.tail _ (.head _)), ?_, ?_, ?_, resolve_failing h⟩
  · have happend := Exchanges.readings_append es₁ resolved
    rw [identify_readings hid, List.nil_append] at happend
    exact congrArg (receivedAt :: ·) happend
  · have happend := Exchanges.transport_append es₁ resolved
    rw [htransport, List.nil_append] at happend
    exact happend
  · have happend := Exchanges.runs_append es₁ resolved
    rw [hruns, List.nil_append] at happend
    exact happend

/-! ## A first failure -/

/-- A worker that skips tasks without a handler. -/
def plainConfig : Config :=
  ⟨⟨"ready", "waiting", "dead"⟩, "workers", .zero, .skip, .zero, Policy.noRetry⟩

/-- A task without arguments, delivered for the first time. -/
def firstDelivery : Delivery :=
  ⟨⟨"ready", 0, "0"⟩,
    (⟨"t", Payload.toWire ∅, ∅⟩ : Message).setHeader Header.correlationId "a", 1⟩

omit [Number.Arithmetic ν] in
theorem priorFailures_firstDelivery (p : Policy ν) :
    (priorFailures p firstDelivery.message).toNat = 0 := by
  rw [toNat_priorFailures]
  exact Nat.zero_min _

/-- Its handler runs and fails. -/
def firstRun (p : Policy ν) : TaskRun :=
  ⟨contextOf p .never firstDelivery "a", ∅, .failed ["busy"]⟩

/-- Its trail by then, by a clock that stands still. -/
def firstFailure (p : Policy ν) (now : Instant) : Trail :=
  failedTrail p firstDelivery "a" "busy" now

omit [Number.Arithmetic ν] in
theorem failures_firstFailure (p : Policy ν) (now : Instant) :
    (firstFailure p now).failures.toNat = 1 := by
  have hfailures := (failedTrail_trailOf p firstDelivery "a" "busy" now).failures
  rw [priorFailures_firstDelivery] at hfailures
  exact hfailures

theorem process_firstDelivery {now : Instant} (h : (handleFailure plainConfig.topics p draw
    firstDelivery (firstFailure p now)).Ends es r) :
    (process plainConfig draw .never firstDelivery).Ends
      ([⟨.count .processed, ()⟩, ⟨.now, now⟩, ⟨.policy, p⟩, ⟨.now, now⟩, ⟨.handles "t", true⟩,
        ⟨.now, now⟩, ⟨.handle (firstRun p).context ∅, (firstRun p).ending⟩, ⟨.now, now⟩,
        ⟨.remember firstDelivery.position.render (firstFailure p now), ()⟩] ++ es) r := by
  have identified : (identify firstDelivery.message : Program ν String).Ends [] "a" := .done "a"
  have failed : (firstRun p).ending.error? = some "busy" := rfl
  exact process_failed identified rfl failed h

end TaskQueue.Worker
