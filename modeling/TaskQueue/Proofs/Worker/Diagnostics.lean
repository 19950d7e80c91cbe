import TaskQueue.Proofs.Message.Copies
import TaskQueue.Proofs.Task.Trail
import TaskQueue.Proofs.Worker.Failing

/-!
# What a dead letter tells

How a message came to be given up is written down twice: in headers of their own, and in the trail
that another header has as a document. The trail began when the delivery was received and has grown
since, and the headers are set at the end.

Results:

* `Routed.diagnosed`: a trail that has come so far agrees with the dead letter made from it;
* `process_published`, `exists_deadLetter`: what a worker publishes, and that it does;
* `diagnostics_agree`: **the trail of every dead letter can be read and agrees with its headers.**
-/

namespace TaskQueue.Worker

open Json Text Time Engine Retry Script

variable {ν : Type}

/-- The stages that a message has been through when it is given up. -/
def stagesOf (m : Message) : List Stage :=
  match Payload.ofWire m.payload with
  | .error _ => [.received, .failed, .deadLettered]
  | .ok _ => [.received, .parsed, .dispatched, .failed, .deadLettered]

/-- The trail `t` is read from the dead letter and agrees with its other headers. Every mark was
made when the worker read the clock. -/
structure Diagnosed (d : Delivery) (es : Exchanges ν) (letter : Message) (t : Trail) : Prop where
  parsed : ∃ text, letter.header? Header.metadata = some text ∧
    Codec.parse (Utf8.encodeText text) = some t
  retryCount : letter.header? Header.retryCount = some t.failures.toNat.repr
  failed : t.lastError.isSome = true
  reason : letter.header? Header.error = t.lastError
  correlationId : letter.header? Header.correlationId = some t.correlationId
  fromTopic : letter.header? Header.fromTopic = some t.topic
  fromOffset : letter.header? Header.fromOffset = some t.offset
  stages : t.marks.map Mark.stage = stagesOf d.message
  clock : t.marks.map Mark.instant = es.readings

/-- A handler has failed and the policy grants its task another run. -/
def RetryGranted (d : Delivery) (es : Exchanges ν) : Prop :=
  ∃ p run error, ⟨.policy, p⟩ ∈ es ∧ run ∈ es.runs ∧ run.ending.error? = some error ∧
    p.retries ((priorFailures p d.message).toNat + 1) error = true

section

variable {d : Delivery} {es : Exchanges ν} {topic topic' : String} {m : Message}
  {x y : Except TransportError Unit}

/-- **A trail that has come so far** agrees with the dead letter that is made from it. -/
theorem Routed.diagnosed {rest : Exchanges ν} {id error : String} {seen now : Instant} {n : Nat}
    {t : Trail} (h : Routed d topic (deadLetterCopy d (t.record .deadLettered now) now) rest x)
    (sent : ⟨.publish topic' m, y⟩ ∈ rest) (trail : TrailOf d id seen n t)
    (failed : t.lastError = some error)
    (stages : t.marks.map Mark.stage ++ [.deadLettered] = stagesOf d.message)
    (clock : t.marks.map Mark.instant ++ [now] = es.readings) :
    topic' = topic ∧ ∃ t, Diagnosed d es m t := by
  obtain ⟨rfl, rfl⟩ := h.eq_of_mem sent
  have hset (name : String) :
      (deadLetterCopy d (t.record .deadLettered now) now).header? name = _ :=
    Message.header?_setHeaders _ _ name
  exact ⟨rfl, t.record .deadLettered now, {
    parsed := ⟨_, hset _, Trail.parse_render _⟩
    retryCount := hset _
    failed := by rw [show (t.record .deadLettered now).lastError = _ from failed]; rfl
    reason := by rw [hset, show (t.record .deadLettered now).lastError = _ from failed]; rfl
    correlationId := hset _
    fromTopic := (hset _).trans (congrArg some trail.topic.symm)
    fromOffset := (hset _).trans (congrArg some trail.offset.symm)
    stages := by simpa [Trail.record] using stages
    clock := by simpa [Trail.record] using clock }⟩

end

section

variable [Number.Arithmetic ν] {c : Config} {draw : Draw ν} {token : CancelToken} {d : Delivery}
  {es : Exchanges ν} {r : Resolution} {topic : String} {m : Message}
  {x : Except TransportError Unit}

/-- **Whatever a worker publishes** waits for the next run of its task, or tells how the message
came to be given up. -/
theorem process_published (h : (process c draw token d).Ends es r)
    (sent : ⟨.publish topic m, x⟩ ∈ es) :
    (topic = c.topics.delayed ∧ RetryGranted d es) ∨
      (topic = c.topics.deadLetter ∧ ∃ t, Diagnosed d es m t) := by
  obtain ⟨p, id, receivedAt, resolved, hp, hclock, hsent, hruns, failing⟩ := process_failing h
  have hmem : ⟨.publish topic m, x⟩ ∈ Exchanges.transport resolved :=
    hsent ▸ List.mem_filter.mpr ⟨sent, rfl⟩
  have began := firstTrail_trailOf p d id receivedAt
  cases failing with
  | @unread e failedAt rest unread idle clock same givenUp =>
    obtain ⟨now, y, -, hnow, -, routed⟩ := deadLetter_ends givenUp
    refine .inr (routed.diagnosed (same ▸ hmem) (unreadTrail_trailOf began e failedAt) rfl ?_ ?_)
    · simp [stagesOf, unread, unreadTrail, firstTrail, Trail.recordFailure, Trail.record,
        Trail.start]
    · rw [hclock, clock, hnow]
      rfl
  | @ran payload ending error parsedAt startedAt failedAt rest read hran failed clock same
      decided =>
    have trail := ranTrail_trailOf began error parsedAt startedAt failedAt
    obtain ⟨-, ⟨-, now, y, -, hnow, routed⟩ | ⟨-, e, -, -, silent⟩ |
      ⟨again, backoff, now, -, -, ⟨-, -, silent⟩ | ⟨due, y, -, -, routed⟩⟩⟩ :=
      handleFailure_ends trail.failures rfl decided
    · refine .inr (routed.diagnosed (same ▸ hmem) trail rfl ?_ ?_)
      · simp [stagesOf, read, ranTrail, firstTrail, Trail.recordFailure, Trail.record, Trail.start]
      · rw [hclock, clock, hnow]
        rfl
    · rw [same, silent] at hmem
      cases hmem
    · rw [same, silent] at hmem
      cases hmem
    · refine .inl ⟨(routed.eq_of_mem (same ▸ hmem)).1, p,
        ⟨contextOf p token d id, payload, ending⟩, error, hp, ?_, failed, again⟩
      rw [hruns, hran]
      exact List.mem_singleton_self _
  | well silent => exact absurd hmem (silent topic m x)

/-- A delivery that is given up has a dead letter. -/
theorem exists_deadLetter (h : (process c draw token d).Ends es (.ok .deadLettered)) :
    ∃ letter, ⟨.publish c.topics.deadLetter letter, .ok ()⟩ ∈ es := by
  have published {letter : Message} {y : Except TransportError Unit}
      (hy : y = .ok ()) (routed : Routed d c.topics.deadLetter letter es.transport y) :
      ⟨.publish c.topics.deadLetter letter, .ok ()⟩ ∈ es := by
    subst hy
    have hmem : ⟨.publish c.topics.deadLetter letter, .ok ()⟩ ∈ es.transport := by
      simp [routed.of_ok]
    exact (List.mem_filter.mp hmem).1
  obtain ⟨p, id, receivedAt, -, -, -, processed⟩ := process_ends h
  generalize hr : (.ok .deadLettered : Resolution) = r at processed
  cases processed with
  | malformed _ _ _ _ _ routed => exact ⟨_, published (settled_eq_ok_iff.mp hr.symm).1 routed⟩
  | givenUp _ _ _ routed => exact ⟨_, published (settled_eq_ok_iff.mp hr.symm).1 routed⟩
  | neverDue | noBackoff => cases hr
  | skipped | requeued | succeeded | retried => cases (settled_eq_ok_iff.mp hr.symm).2

end

/-- **The trail of a dead letter can be read and agrees with its headers.** Every trail is parsed
from its own text. A delivery that is given up has a dead letter. Whatever a worker publishes waits
for the next run of its task, or is a dead letter whose trail tells what its headers tell, has been
through the stages of a message that fails, and has marks that are in order when the clock goes
forward. -/
theorem diagnostics_agree :
    (∀ t : Trail, Codec.parse (Utf8.encodeText t.render) = some t) ∧
      ∀ {ν : Type} [Number.Arithmetic ν] (c : Config) (draw : Draw ν) (token : CancelToken)
        (d : Delivery) (es : Exchanges ν) (r : Resolution), (process c draw token d).Ends es r →
        (r = .ok .deadLettered → ∃ letter, ⟨.publish c.topics.deadLetter letter, .ok ()⟩ ∈ es) ∧
        ∀ topic letter x, ⟨.publish topic letter, x⟩ ∈ es →
          (topic = c.topics.delayed ∧ RetryGranted d es) ∨
          (topic = c.topics.deadLetter ∧ ∃ t, Diagnosed d es letter t ∧
            (es.readings.Pairwise (· ≤ ·) →
              (t.marks.map Mark.instant).Pairwise (· ≤ ·))) := by
  refine ⟨Trail.parse_render, fun c draw token d es r h => ⟨?_, ?_⟩⟩
  · rintro rfl
    exact exists_deadLetter h
  · intro topic letter x sent
    refine (process_published h sent).imp_right fun ⟨htopic, t, diagnosed⟩ => ⟨htopic, t, ?_⟩
    exact ⟨diagnosed, fun forward => diagnosed.clock ▸ forward⟩

/-- A message that is given up after its first failure. -/
theorem first_failure_diagnosed :
    ∃ (es : Exchanges Number.Double) (letter : Message) (t : Trail),
      (process plainConfig id .never firstDelivery).Ends es (.ok .deadLettered) ∧
        ⟨.publish "dead" letter, .ok ()⟩ ∈ es ∧ Diagnosed firstDelivery es letter t ∧
        (t.marks.map Mark.instant).Pairwise (· ≤ ·) := by
  let t := (firstFailure Policy.noRetry .epoch).record .deadLettered .epoch
  let letter := deadLetterCopy firstDelivery t .epoch
  obtain ⟨es, run, sent, clock⟩ : ∃ es : Exchanges Number.Double,
      (process plainConfig id .never firstDelivery).Ends es (.ok .deadLettered) ∧
      ⟨.publish "dead" letter, .ok ()⟩ ∈ es ∧ es.readings = List.replicate 5 .epoch :=
    ⟨_, process_firstDelivery (handleFailure_givenUp .epoch rfl),
      List.mem_of_getElem? (i := 11) rfl, rfl⟩
  rcases (diagnostics_agree.2 plainConfig id .never firstDelivery es _ run).2 _ _ _ sent with
    ⟨htopic, -⟩ | ⟨-, t, diagnosed, ordered⟩
  · exact absurd htopic (by decide)
  · exact ⟨es, letter, t, run, sent, diagnosed, ordered (by rw [clock]; decide)⟩

end TaskQueue.Worker
