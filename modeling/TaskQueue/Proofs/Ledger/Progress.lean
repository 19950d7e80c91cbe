import TaskQueue.Proofs.Broker.Next
import TaskQueue.Proofs.Client.Enqueue
import TaskQueue.Proofs.Ledger.System
import TaskQueue.Proofs.Promotion.DueTime
import TaskQueue.Proofs.Promotion.Promote

/-!
# Every component can take its step

A component whose handle is open can do its work: a client puts a task on the queue, a worker
processes the delivery that it receives, a promoter holds one and promotes what is due.

Results:

* `Step.of_named`, `Step.of_named_delayed`: the steps of a client;
* `Step.of_undisturbed`: the step of a worker;
* `Step.of_told`, `Step.of_promoted`: the steps of a promoter;
* `Step.exists_retried`, `Step.exists_finished`, `Step.exists_shutOut`, `Step.exists_held`: what can
  become of the message that is next.
-/

namespace TaskQueue.Ledger

open Broker Engine Promotion Time

variable {ν : Type} {q : Setup} {s : System} {a : Member} {p : Port} {b b' : State} {d : Delivery}
  {n : Nat} {id task : String} {payload : Payload} {m : Message} {now due : Instant} {delay : Span}
  {es sent : Exchanges ν}

/-- Exchanges after which a handle is open as before change the broker and give out identifiers. -/
theorem System.after_open (isOpen : s.closed a = false) :
    s.after a ⟨b, false⟩ es = { s with broker := b, issued := es.newIds ++ s.issued } := by
  have hclosed : (fun a' => if a' = a then false else s.closed a') = s.closed := by
    funext a'
    split
    · next h => rw [h, isOpen]
    · rfl
  simp only [System.after, hclosed]

variable [Number.Arithmetic ν]

/-- A client puts a task on the queue under an identifier that is new. -/
theorem Step.of_named (isOpen : s.closed (.client n) = false) (new : id ∉ s.issued)
    (named : Client.taskMessage? task payload id = some m) (now : Instant) :
    Step ν q s (.enqueued (.ok id))
      { s with
        broker := s.broker.publish q.topics.active (m.setHeader Header.enqueuedAt now.renderMillis)
        accepted := id :: s.accepted
        issued := id :: s.issued } := by
  let m' := m.setHeader Header.enqueuedAt now.renderMillis
  let es : Exchanges ν := [⟨.newId, id⟩, ⟨.now, now⟩, ⟨.publish q.topics.active m', .ok ()⟩]
  have run : (Client.enqueue q.topics task payload).Ends es (.ok id) :=
    Client.enqueue_ends_iff.mpr (.sent now (.ok ()) named)
  have served : Serving "" "" (s.port (.client n)) es
      ⟨s.broker.publish q.topics.active m', false⟩ := by
    rw [System.port, isOpen]
    exact .cons (.elsewhere _ rfl) (.cons (.elsewhere _ rfl) (.cons (.published _ _ _) (.nil _)))
  have step := Step.enqueued run served fun id' hid' => List.mem_singleton.mp hid' ▸ new
  rw [System.after_open isOpen] at step
  exact step

/-- A client puts a task on the queue that is to wait. -/
theorem Step.of_named_delayed (isOpen : s.closed (.client n) = false) (new : id ∉ s.issued)
    (named : Client.taskMessage? task payload id = some m) (wait : delay.isZero = false)
    (moved : now.addSpan? delay = some due) :
    Step ν q s (.enqueued (.ok id))
      { s with
        broker := s.broker.publish q.topics.delayed (Client.delayedMessage m task now due)
        accepted := id :: s.accepted
        issued := id :: s.issued } := by
  let es : Exchanges ν := [⟨.now, now⟩, ⟨.newId, id⟩,
    ⟨.publish q.topics.delayed (Client.delayedMessage m task now due), .ok ()⟩]
  have run : (Client.enqueueDelayed q.topics task payload delay).Ends es (.ok id) :=
    (Client.enqueueDelayed_ends_iff wait).mpr (.sent (.ok ()) moved named)
  have served : Serving "" "" (s.port (.client n)) es
      ⟨s.broker.publish q.topics.delayed (Client.delayedMessage m task now due), false⟩ := by
    rw [System.port, isOpen]
    exact .cons (.elsewhere _ rfl) (.cons (.elsewhere _ rfl) (.cons (.published _ _ _) (.nil _)))
  have step := Step.enqueuedDelayed run served fun id' hid' => List.mem_singleton.mp hid' ▸ new
  rw [System.after_open isOpen] at step
  exact step

/-- **A worker that receives a delivery and is not disturbed** takes its step. Its handle may be
closed on the way. -/
theorem Step.of_undisturbed {c : Worker.Config} {pol : Retry.Policy ν} {draw : Retry.Draw ν}
    {token : CancelToken} {ran : TaskRun} {r : Worker.Resolution}
    (isOpen : s.closed (.worker n) = false) (topics : c.topics = q.topics)
    (group : c.group = q.workers)
    (hr : s.broker.receive q.topics.active q.workers = (some d, b))
    (run : (Worker.process c draw token d).Ends es r)
    (calm : Worker.Undisturbed pol d ran sent es)
    (served : Serving q.topics.active q.workers ⟨b, false⟩ sent p) :
    Step ν q s (.worked d r)
      { s.after (.worker n) p ([] : Exchanges ν) with
        resolved := s.resolved ++ (Worker.finished? d ran).toList } := by
  have served' : Serving q.topics.active q.workers (s.port (.worker n))
      (⟨.receive .zero, .delivery d⟩ :: es) p := by
    rw [System.port, isOpen]
    rw [← calm.transport] at served
    exact .cons (.delivered .zero hr) (.of_transport served)
  have step := Step.worked topics group run served' fun id hid => by
    rw [calm.newIds] at hid
    cases hid
  rw [Worker.resolvedBy_ran (Worker.process_lookups run) calm.ran] at step
  simp only [System.after, calm.newIds] at step ⊢
  exact step

/-- A promoter that receives a delivery that tells its due time holds it. -/
theorem Step.of_told (isOpen : s.closed (.promoter n) = false)
    (hr : s.broker.receive q.topics.delayed q.promoters = (some d, b))
    (told : dueTime? d.message = some due) :
    Step ν q s (.held n d) ({ s with broker := b }.holding n ((s.held n).push due d)) := by
  have served : Serving q.topics.delayed q.promoters (s.port (.promoter n))
      ([⟨.receive .zero, .delivery d⟩] : Exchanges ν) ⟨b, false⟩ := by
    rw [System.port, isOpen]
    exact .cons (.delivered .zero hr) (.nil _)
  have step := Step.held (hold_told told) served
  rw [System.after_open isOpen] at step
  exact step

/-- **A promoter promotes what is due**, as far as its handle lets it. -/
theorem Step.of_promoted {r : Except TransportError Unit}
    (promoted : Promoted q.topics.active now ((s.held n).takeDue now) es r)
    (served : Serving q.topics.delayed q.promoters (s.port (.promoter n)) es p) :
    Step ν q s (.promoted n now r)
      ((s.after (.promoter n) p ([] : Exchanges ν)).holding n ((s.held n).dropDue now)) := by
  have run := promoted.promoteDue_ends (c := ⟨q.topics, q.promoters, .zero⟩)
  have step := Step.promoted rfl run (.cons (.elsewhere _ rfl) served)
  have quiet : Exchanges.newIds ((⟨.now, now⟩ : Exchange (Answer ν)) :: es) = [] :=
    promoted.transport.2
  simp only [System.after, quiet] at step ⊢
  exact step

/-! ## The next message -/

section

variable {i : Nat} {error : String} {ending : HandlerEnd} {backoff : Span} {pol : Retry.Policy ν}
  {draw : Retry.Draw ν}

/-- How a worker of the queue is set up. -/
def Setup.worker (q : Setup) : Worker.Config :=
  { Worker.Config.ofTopics q.topics with group := q.workers }

/-- A worker is handed the message that is next, and its task fails and is retried. -/
theorem Step.exists_retried (isOpen : s.closed (.worker n) = false)
    (next : s.broker.NextAt q.topics.active q.workers i)
    (there : (s.broker.messages q.topics.active)[i]? = some m) (hi : i ≤ Text.maxNat64)
    (named : m.header? Header.correlationId = some id)
    (read : Payload.ofWire m.payload = .ok payload) (failed : ending.error? = some error)
    (again : pol.retries ((Worker.priorFailures pol m).toNat + 1) error = true)
    (wait : pol.backoff draw ((Worker.priorFailures pol m).toNat + 1) = .ok backoff)
    (onTime : Worker.dueAfter now backoff = some due) :
    ∃ b copy,
      Step ν q s (.worked ⟨State.position q.topics.active i, m, 1⟩ (.ok .retried))
        { s with broker := b } ∧
      dueTime? copy = some (told due) ∧
      (∀ t, b.messages t = (s.broker.publish q.topics.delayed copy).messages t) ∧
      b.NextAt q.topics.active q.workers (i + 1) ∧
      ∀ g k, s.broker.NextAt q.topics.delayed g k → b.NextAt q.topics.delayed g k := by
  obtain ⟨b, hr, next', logs, others⟩ := next.exists_receive there
  obtain ⟨es, copy, run, calm, copied⟩ := Worker.exists_retried q.worker
    ⟨State.position q.topics.active i, m, 1⟩ pol draw .never named read failed again wait onTime
  have step := Step.of_undisturbed isOpen rfl rfl hr run calm (serving_forward rfl hi)
  rw [Worker.finished?_eq_none failed, Option.toList_none, List.append_nil,
    System.after_open isOpen] at step
  let b' := (b.publish q.topics.delayed copy).changeGroup q.topics.active q.workers (·.settle i)
  refine ⟨b', copy, ?_, dueTime?_of_headers copied.scheduledFor copied.scheduledAt, fun t => ?_,
    next'.publish.settle, fun g k hk => ?_⟩
  · exact step
  · rw [State.messages_changeGroup, State.messages_publish, State.messages_publish, logs, logs]
  · exact (hk.congr (others _ _ fun h => q.delayed_ne_active h.1)).publish.settle

/-- A worker is handed the message that is next and finishes its task. -/
theorem Step.exists_finished (pol : Retry.Policy ν) (draw : Retry.Draw ν)
    (isOpen : s.closed (.worker n) = false)
    (next : s.broker.NextAt q.topics.active q.workers i)
    (there : (s.broker.messages q.topics.active)[i]? = some m) (hi : i ≤ Text.maxNat64)
    (named : m.header? Header.correlationId = some id)
    (read : Payload.ofWire m.payload = .ok payload) :
    ∃ b, Step ν q s (.worked ⟨State.position q.topics.active i, m, 1⟩ (.ok .succeeded))
        { s with broker := b, resolved := s.resolved ++ [id] } ∧
      ∀ t, b.messages t = s.broker.messages t := by
  let d : Delivery := ⟨State.position q.topics.active i, m, 1⟩
  obtain ⟨b, hr, -, logs, -⟩ := next.exists_receive there
  obtain ⟨es, run, calm⟩ := Worker.exists_succeeded q.worker d pol draw .never named read
  have step := Step.of_undisturbed isOpen rfl rfl hr run calm (serving_ack rfl hi)
  have finished : Worker.finished? d ⟨Worker.contextOf pol .never d id, payload, .succeeded⟩ =
      some id := if_pos ⟨rfl, rfl, congrArg Except.toOption read⟩
  rw [finished, System.after_open isOpen] at step
  exact ⟨_, step, fun t => (State.messages_changeGroup _ _ _ _ t).trans (logs t)⟩

/-- A worker is handed the message that is next and is to give its task up, but its handle is closed
before that. -/
theorem Step.exists_shutOut (draw : Retry.Draw ν) (isOpen : s.closed (.worker n) = false)
    (next : s.broker.NextAt q.topics.active q.workers i)
    (there : (s.broker.messages q.topics.active)[i]? = some m)
    (named : m.header? Header.correlationId = some id)
    (read : Payload.ofWire m.payload = .ok payload) (failed : ending.error? = some error)
    (last : pol.retries ((Worker.priorFailures pol m).toNat + 1) error = false) :
    ∃ s', Step ν q s (.worked ⟨State.position q.topics.active i, m, 1⟩
        (.error (.transport .closed))) s' ∧
      ∀ t, s'.broker.messages t = s.broker.messages t := by
  obtain ⟨b, hr, -, logs, -⟩ := next.exists_receive there
  obtain ⟨es, copy, run, calm⟩ := Worker.exists_refused q.worker
    ⟨State.position q.topics.active i, m, 1⟩ pol draw .never .epoch .closed named read failed last
  exact ⟨_, .of_undisturbed isOpen rfl rfl hr run calm
    (.shut (.cons (.publishRefused _ _ _) (.nil _))), logs⟩

/-- A promoter is handed the waiting message that is next, and holds it. -/
theorem Step.exists_held (isOpen : s.closed (.promoter n) = false)
    (next : s.broker.NextAt q.topics.delayed q.promoters i)
    (there : (s.broker.messages q.topics.delayed)[i]? = some m) (tells : dueTime? m = some due) :
    ∃ b, Step ν q s (.held n ⟨State.position q.topics.delayed i, m, 1⟩)
        ({ s with broker := b }.holding n
          ((s.held n).push due ⟨State.position q.topics.delayed i, m, 1⟩)) ∧
      b.NextAt q.topics.delayed q.promoters (i + 1) ∧
      (∀ t, b.messages t = s.broker.messages t) ∧
      ∀ g k, s.broker.NextAt q.topics.active g k → b.NextAt q.topics.active g k := by
  obtain ⟨b, hr, next', logs, others⟩ := next.exists_receive there
  refine ⟨b, .of_told isOpen hr tells, next', logs, fun g k hk => hk.congr (others _ _ ?_)⟩
  exact fun h => q.delayed_ne_active h.1.symm

end

end TaskQueue.Ledger
