import TaskQueue.Client.Enqueue
import TaskQueue.Proofs.Engine.Exchange

/-!
# What putting a task on a queue comes to

A client asks for one new identifier and publishes at most one message, which carries it.

Results:

* `bears_taskMessage`: what the message of a task tells, and goes on telling;
* `enqueue_ends_iff`, `enqueueDelayed_ends_iff`: the courses that an enqueue may take;
* `enqueue_ends`, `enqueueDelayed_ends`: nothing was asked of the broker and the answer is an error,
  or one message was published and the answer is that of the broker;
* `enqueueDelayed_ok_iff`: what a client has done that has delayed a task.
-/

namespace TaskQueue.Client

open Time Text Engine Script

variable {ν : Type}

/-- What a client makes of the answer of the broker. -/
def answered (id : String) : Except TransportError Unit → Except ClientError String
  | .ok () => .ok id
  | .error e => .error (.transport e)

/-- One message was published to one of the topics, under the identifier that was given out, or the
broker was asked nothing. -/
inductive Posted (topics : Topics) (es : Exchanges ν) : Except ClientError String → Prop where
  | unasked (e : ClientError) (idle : es.transport = []) : Posted topics es (.error e)
  | sent {topic : String} {m : Message} {id : String} (x : Except TransportError Unit)
      (lane : topic = topics.active ∨ topic = topics.delayed)
      (named : m.header? Header.correlationId = some id) (new : es.newIds = [id])
      (published : es.transport = [⟨.publish topic m, x⟩]) : Posted topics es (answered id x)

variable {topics : Topics} {task : String} {payload : Payload} {es : Exchanges ν}
  {r : Except ClientError String} {id : String} {m : Message}

theorem send_ends {topic : String} (h : (send topic m id).Ends es r) :
    ∃ x, es = [⟨.publish topic m, x⟩] ∧ r = answered id x := by
  unfold send at h
  simp only [request_bind, ends_ask_iff] at h
  obtain ⟨x, es₁, rfl, h⟩ := h
  cases x with
  | ok u =>
    simp only [pure_eq_done, ends_done_iff] at h
    obtain ⟨rfl, rfl⟩ := h
    exact ⟨.ok u, rfl, rfl⟩
  | error e =>
    simp only [pure_eq_done, ends_done_iff] at h
    obtain ⟨rfl, rfl⟩ := h
    exact ⟨.error e, rfl, rfl⟩

/-- The message of a task that is put on the queue at `now`, to be run when it is due. -/
def delayedMessage (m : Message) (task : String) (now due : Instant) : Message :=
  m.setHeaders (dueHeaders due ++ [(Header.taskName, task), (Header.enqueuedAt, now.renderMillis)])

/-- What a message tells of its task. -/
structure Bears (m : Message) (task : String) (payload : Payload) (id : String) : Prop where
  key : m.key = task
  payload : m.payload = payload.toWire
  id : m.header? Header.correlationId = some id

theorem bears_taskMessage (h : taskMessage? task payload id = some m) :
    Bears m task payload id := by
  unfold taskMessage? at h
  split at h
  · cases h
  · obtain rfl := Option.some.inj h
    refine ⟨rfl, rfl, ?_⟩
    rw [Message.header?_setHeader, if_pos rfl]

theorem Bears.prompt (h : Bears m task payload id) (now : Instant) :
    Bears (m.setHeader Header.enqueuedAt now.renderMillis) task payload id where
  key := h.key
  payload := h.payload
  id := by
    rw [Message.header?_setHeader, if_neg (by decide)]
    exact h.id

theorem Bears.delayed (h : Bears m task payload id) (now due : Instant) :
    Bears (delayedMessage m task now due) task payload id where
  key := h.key
  payload := h.payload
  id := by
    simp only [delayedMessage, dueHeaders, Message.setHeaders, List.cons_append, List.nil_append,
      List.foldl_cons, List.foldl_nil]
    iterate 4 rw [Message.header?_setHeader, if_neg (by decide)]
    exact h.id

/-! ## The courses of an enqueue -/

/-- **Putting a task on a queue at once.** -/
inductive Prompt (topics : Topics) (task : String) (payload : Payload) :
    Exchanges ν → Except ClientError String → Prop where
  | unnamed (id : String) (blank : isAllBlank task = true) :
      Prompt topics task payload [⟨.newId, id⟩] (.error .emptyTaskName)
  | sent {id : String} {m : Message} (now : Instant) (x : Except TransportError Unit)
      (named : taskMessage? task payload id = some m) :
      Prompt topics task payload [⟨.newId, id⟩, ⟨.now, now⟩,
        ⟨.publish topics.active (m.setHeader Header.enqueuedAt now.renderMillis), x⟩]
        (answered id x)

/-- **Putting a task on a queue after a delay.** -/
inductive Deferred (topics : Topics) (task : String) (payload : Payload) (delay : Span) :
    Exchanges ν → Except ClientError String → Prop where
  /-- The due time is no instant. -/
  | never {now : Instant} (beyond : now.addSpan? delay = none) :
      Deferred topics task payload delay [⟨.now, now⟩] (.error (.invalidDelay delay))
  | unnamed {now due : Instant} (id : String) (moved : now.addSpan? delay = some due)
      (blank : isAllBlank task = true) :
      Deferred topics task payload delay [⟨.now, now⟩, ⟨.newId, id⟩] (.error .emptyTaskName)
  | sent {now due : Instant} {id : String} {m : Message} (x : Except TransportError Unit)
      (moved : now.addSpan? delay = some due) (named : taskMessage? task payload id = some m) :
      Deferred topics task payload delay [⟨.now, now⟩, ⟨.newId, id⟩,
        ⟨.publish topics.delayed (delayedMessage m task now due), x⟩] (answered id x)

theorem taskMessage?_eq_none_iff :
    taskMessage? task payload id = none ↔ isAllBlank task = true := by
  unfold taskMessage?
  split
  · next h => exact iff_of_true rfl h
  · next h => exact iff_of_false (Option.some_ne_none _) h

theorem send_ends_iff {topic : String} :
    (send topic m id).Ends es r ↔ ∃ x, es = [⟨.publish topic m, x⟩] ∧ r = answered id x := by
  refine ⟨send_ends, ?_⟩
  rintro ⟨x, rfl, rfl⟩
  refine .ask _ _ ?_
  cases x with
  | ok u => exact .done _
  | error e => exact .done _

theorem enqueue_ends_iff :
    (enqueue topics task payload).Ends es r ↔ Prompt topics task payload es r := by
  unfold enqueue
  simp only [request_bind, ends_ask_iff]
  constructor
  · rintro ⟨id, es₁, rfl, h⟩
    cases hm : taskMessage? task payload id with
    | none =>
      simp only [hm, pure_eq_done, ends_done_iff] at h
      obtain ⟨rfl, rfl⟩ := h
      exact .unnamed id (taskMessage?_eq_none_iff.mp hm)
    | some m =>
      simp only [hm, ends_ask_iff] at h
      obtain ⟨now, es₂, rfl, h⟩ := h
      obtain ⟨x, rfl, rfl⟩ := send_ends h
      exact .sent now x hm
  · rintro (⟨id, blank⟩ | ⟨now, x, named⟩)
    · refine ⟨id, _, rfl, ?_⟩
      rw [taskMessage?_eq_none_iff.mpr blank]
      exact .done _
    · refine ⟨_, _, rfl, ?_⟩
      rw [named]
      exact .ask _ _ (send_ends_iff.mpr ⟨x, rfl, rfl⟩)

theorem enqueueDelayed_of_isZero {delay : Span} (hz : delay.isZero = true) :
    (enqueueDelayed topics task payload delay : Program ν _) = enqueue topics task payload :=
  if_pos hz

theorem enqueueDelayed_ends_iff {delay : Span} (hz : delay.isZero = false) :
    (enqueueDelayed topics task payload delay).Ends es r ↔
      Deferred topics task payload delay es r := by
  unfold enqueueDelayed
  simp only [hz, Bool.false_eq_true, if_false, request_bind, ends_ask_iff]
  constructor
  · rintro ⟨now, es₁, rfl, h⟩
    cases hdue : now.addSpan? delay with
    | none =>
      simp only [hdue, pure_eq_done, ends_done_iff] at h
      obtain ⟨rfl, rfl⟩ := h
      exact .never hdue
    | some due =>
      simp only [hdue, ends_ask_iff] at h
      obtain ⟨id, es₂, rfl, h⟩ := h
      cases hm : taskMessage? task payload id with
      | none =>
        simp only [hm, pure_eq_done, ends_done_iff] at h
        obtain ⟨rfl, rfl⟩ := h
        exact .unnamed id hdue (taskMessage?_eq_none_iff.mp hm)
      | some m =>
        simp only [hm] at h
        obtain ⟨x, rfl, rfl⟩ := send_ends h
        exact .sent x hdue hm
  · rintro (⟨beyond⟩ | ⟨id, moved, blank⟩ | ⟨x, moved, named⟩)
    · refine ⟨_, _, rfl, ?_⟩
      rw [beyond]
      exact .done _
    · refine ⟨_, _, rfl, ?_⟩
      rw [moved]
      refine .ask _ _ ?_
      rw [taskMessage?_eq_none_iff.mpr blank]
      exact .done _
    · refine ⟨_, _, rfl, ?_⟩
      rw [moved]
      refine .ask _ _ ?_
      rw [named]
      exact send_ends_iff.mpr ⟨x, rfl, rfl⟩

/-! ## What went to the broker -/

/-- **A task is put on the queue by one message**, or not at all. -/
theorem enqueue_ends (h : (enqueue topics task payload).Ends es r) : Posted topics es r := by
  cases enqueue_ends_iff.mp h with
  | unnamed id blank => exact .unasked _ rfl
  | sent now x named =>
    exact .sent x (Or.inl rfl) ((bears_taskMessage named).prompt now).id rfl rfl

/-- **A task that is delayed is put on the queue by one message**, or not at all. -/
theorem enqueueDelayed_ends {delay : Span}
    (h : (enqueueDelayed topics task payload delay).Ends es r) :
    Posted topics es r := by
  cases hz : delay.isZero with
  | true => exact enqueue_ends (enqueueDelayed_of_isZero hz ▸ h)
  | false =>
    cases (enqueueDelayed_ends_iff hz).mp h with
    | never beyond => exact .unasked _ rfl
    | unnamed id moved blank => exact .unasked _ rfl
    | sent x moved named =>
      exact .sent x (Or.inr rfl) ((bears_taskMessage named).delayed _ _).id rfl rfl

/-- **A task was delayed**: the clock was read once, and the message tells the due time that the
delay leads to from there. -/
theorem enqueueDelayed_ok_iff {delay : Span} (hz : delay.isZero = false) :
    (enqueueDelayed topics task payload delay).Ends es (.ok id) ↔
      ∃ now due m, now.addSpan? delay = some due ∧ taskMessage? task payload id = some m ∧
        es = [⟨.now, now⟩, ⟨.newId, id⟩,
          ⟨.publish topics.delayed (delayedMessage m task now due), .ok ()⟩] := by
  rw [enqueueDelayed_ends_iff hz]
  constructor
  · generalize hr : (Except.ok id : Except ClientError String) = r
    rintro (_ | _ | ⟨x, moved, named⟩)
    · cases hr
    · cases hr
    · cases x with
      | ok u =>
        cases hr
        exact ⟨_, _, _, moved, named, rfl⟩
      | error e => cases hr
  · rintro ⟨now, due, m, moved, named, rfl⟩
    exact .sent (.ok ()) moved named

end TaskQueue.Client
