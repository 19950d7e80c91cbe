import TaskQueue.Proofs.Lineage.Basic
import TaskQueue.Proofs.Message.Copies
import TaskQueue.Proofs.Worker.Process

/-!
# One attempt

What a worker that receives a message does to its lineage: it runs the handler once, and then there
is a success, or a copy that counts one failure more, or a dead letter that does.

Results:

* `claimedFailures_of_header`, `priorFailures_of_header`: a count within the budget reads back;
* `attempted_cases`: what one attempt adds.
-/

namespace TaskQueue.Lineage

open Broker Engine Ledger Time Retry Worker

variable {ν : Type} {q : Setup} {pol : Policy ν} {b b' : State} {m : Message} {i n : Nat}

/-! ## Counts in headers -/

theorem claimedFailures_of_header (h : m.header? Header.retryAttempt = some n.repr)
    (hn : n ≤ Text.maxNat32) : claimedFailures m = n := by
  unfold claimedFailures
  rw [h, Option.bind_some, Text.natural?_repr hn]
  rfl

theorem claimedFailures_of_none (h : m.header? Header.retryAttempt = none) :
    claimedFailures m = 0 := by
  unfold claimedFailures
  rw [h]
  rfl

/-- **A count within the budget reads back** as it was written. -/
theorem priorFailures_of_header (h : m.header? Header.retryAttempt = some n.repr)
    (hn : n < pol.maxRetries.toNat) : (priorFailures pol m).toNat = n := by
  have hlt := pol.maxRetries.toNat_lt
  rw [toNat_priorFailures, claimedFailures_of_header h (by simp only [Text.maxNat32]; omega)]
  omega

theorem priorFailures_of_none (h : m.header? Header.retryAttempt = none) :
    (priorFailures pol m).toNat = 0 := by
  rw [toNat_priorFailures, claimedFailures_of_none h, Nat.zero_min]

/-! ## What an attempt adds -/

/-- **What one attempt adds** to the exchanges of a lineage, for a message that has failed `n` times
before. -/
inductive Attempted (q : Setup) (pol : Policy ν) (m : Message) (n : Nat) (es : Exchanges ν) :
    Outcome → Prop where
  | succeeded {run : TaskRun} (ran : es.runs = [run]) (ending : run.ending = .succeeded)
      (uncopied : copies q es = []) (unrecorded : records q es = []) :
      Attempted q pol m n es .succeeded
  | retried {run : TaskRun} {error : String} {copy : Message} (ran : es.runs = [run])
      (failed : run.ending.error? = some error) (again : pol.retries (n + 1) error = true)
      (copied : copies q es = [copy]) (unrecorded : records q es = [])
      (payload : copy.payload = m.payload)
      (count : copy.header? Header.retryAttempt = some (n + 1).repr) :
      Attempted q pol m n es .retried
  | deadLettered {run : TaskRun} {error : String} {record : Message} (ran : es.runs = [run])
      (failed : run.ending.error? = some error) (again : pol.retries (n + 1) error = false)
      (uncopied : copies q es = []) (recorded : records q es = [record])
      (count : record.header? Header.retryCount = some (n + 1).repr) :
      Attempted q pol m n es .deadLettered

/-- A delivery that was received at a position is the message there. -/
theorem message_of_received {topic group : String} {p p' : Port} {wait : Span} {d : Delivery}
    {es : Exchanges ν} (hs : Serving topic group p (⟨.receive wait, .delivery d⟩ :: es) p')
    (here : d.position = State.position topic i) :
    (p.broker.messages topic)[i]? = some d.message := by
  obtain ⟨c, p₁, -, h₁, -⟩ := serving_cons_iff.mp hs
  obtain ⟨-, -, hr⟩ := serves_delivery h₁
  obtain ⟨j, g, ht⟩ := State.receive_taken hr
  have hij := State.position_injective (here.symm.trans ht.position)
  rw [hij]
  exact ht.read

/-- What a copy that was forwarded adds to a topic. -/
theorem published_of_routed {d : Delivery} {t : String} {m : Message} {es : Exchanges ν}
    (h : Routed d t m es.transport (.ok ())) (t' : String) :
    es.published t' = if t = t' then [m] else [] := by
  rw [← Exchanges.published_transport]
  generalize es.transport = es' at h
  cases h with
  | acked =>
    by_cases ht : t = t'
    · simp only [Exchanges.published, List.filterMap_cons, Exchange.published?, if_pos ht,
        List.filterMap_nil]
    · simp only [Exchanges.published, List.filterMap_cons, Exchange.published?, if_neg ht,
        List.filterMap_nil]

theorem published_of_acked {d : Delivery} {x : Except TransportError Unit} {es : Exchanges ν}
    (h : es.transport = [⟨.ack d, x⟩]) (t : String) : es.published t = [] := by
  rw [← Exchanges.published_transport, h]
  rfl

/-- **An attempt** of a task with a handler and a payload that can be read. -/
theorem attempted_cases [Number.Arithmetic ν] {c : Config} {draw : Draw ν} {token : CancelToken}
    {d : Delivery} {es : Exchanges ν} {o : Outcome} {payload : Payload}
    (topics : c.topics = q.topics) (run : (process c draw token d).Ends es (.ok o))
    (fixed : ∀ p, ⟨.policy, p⟩ ∈ es → p = pol)
    (handled : ⟨.handles d.message.key, false⟩ ∉ es)
    (hread : Payload.ofWire d.message.payload = .ok payload)
    (hn : (priorFailures pol d.message).toNat = n) : Attempted q pol d.message n es o := by
  obtain ⟨p, id, receivedAt, hp, -, -, h⟩ := process_ends run
  obtain rfl := fixed p hp
  generalize hr : (.ok o : Resolution) = r at h
  cases h with
  | malformed unread =>
    rw [hread] at unread
    cases unread
  | skipped read idle unhandled => exact absurd unhandled handled
  | requeued read idle unhandled => exact absurd unhandled handled
  | succeeded read ran acked =>
    obtain ⟨rfl, rfl⟩ := settled_eq_ok_iff.mp hr.symm
    exact .succeeded ran rfl (published_of_acked acked _) (published_of_acked acked _)
  | retried f again wait clock onTime routed =>
    obtain ⟨rfl, rfl⟩ := settled_eq_ok_iff.mp hr.symm
    rw [topics] at routed
    have copied := (published_of_routed routed q.topics.delayed).trans (if_pos rfl)
    have unrecorded := (published_of_routed routed q.topics.deadLetter).trans
      (if_neg q.deadLetter_ne_delayed.symm)
    refine .retried f.ran f.failed (hn ▸ again) copied unrecorded payload_retryCopy ?_
    rw [retryAttempt_retryCopy, f.trail.failures, hn]
  | neverDue => cases hr
  | noBackoff => cases hr
  | givenUp f again clock routed =>
    obtain ⟨rfl, rfl⟩ := settled_eq_ok_iff.mp hr.symm
    rw [topics] at routed
    have uncopied := (published_of_routed routed q.topics.delayed).trans
      (if_neg q.deadLetter_ne_delayed)
    have recorded := (published_of_routed routed q.topics.deadLetter).trans (if_pos rfl)
    refine .deadLettered f.ran f.failed (hn ▸ again) uncopied recorded ?_
    rw [retryCount_deadLetterCopy, f.trail.failures, hn]

end TaskQueue.Lineage
