import TaskQueue.Proofs.Engine.Port
import TaskQueue.Proofs.Message.Copies
import TaskQueue.Proofs.Worker.Resolution

/-!
# What processing a delivery does to a broker

Through a handle, a worker settles the delivery, gives it back, or forwards it as a copy and settles
it. When it fails, the broker is as before: publishing comes first, and is all that can fail.

Whether a task is resolved is not taken from what a worker reports. The exchanges show it: its
handler ran on its payload and succeeded, or it was looked up, has none and is to be skipped
(`resolvedBy`).

Results:

* `resolvedBy_unread`, `resolvedBy_idle`, `resolvedBy_ran`: the tasks that exchanges resolve;
* `routed_serving`: a copy is published and the delivery settled, or the handle was closed;
* `process_effect`: the broker after the processing of a delivery, and what was resolved.
-/

namespace TaskQueue.Worker

open Engine Broker Time

variable {ν : Type} {topic group : String} {p p' : Port} {c : Config} {d : Delivery} {i : Nat}
  {es : Exchanges ν}

/-! ## Tasks that are resolved -/

/-- The task of a delivery, when the handler has run on its payload and succeeded. -/
def finished? (d : Delivery) (run : TaskRun) : Option String :=
  if run.ending = .succeeded ∧ run.context.task = d.message.key ∧
      (Payload.ofWire d.message.payload).toOption = some run.payload then
    some run.context.correlationId
  else none

/-- The task of a delivery, when it was looked up, has no handler and is to be skipped. -/
def skipped? (c : Config) (d : Delivery) (lookup : String × Bool) : Option String :=
  if lookup = (d.message.key, false) ∧ c.unknownTask = .skip then
    d.message.header? Header.correlationId
  else none

/-- **The tasks that exchanges resolve**, each as often as they do. -/
def resolvedBy (c : Config) (d : Delivery) (es : Exchanges ν) : List String :=
  es.runs.filterMap (finished? d) ++ es.lookups.filterMap (skipped? c d)

theorem filterMap_singleton {α β : Type} (f : α → Option β) (a : α) :
    [a].filterMap f = (f a).toList := by
  rw [List.filterMap_cons, List.filterMap_nil]
  cases f a with
  | none => rfl
  | some b => rfl

/-- A run that fails finishes nothing. -/
theorem finished?_eq_none {run : TaskRun} {error : String} (h : run.ending.error? = some error) :
    finished? d run = none := by
  refine if_neg fun hdone => ?_
  rw [hdone.1] at h
  cases h

/-- What cannot be read is not resolved. -/
theorem resolvedBy_unread {e : PayloadError} (looked : LookedUp d es)
    (unread : Payload.ofWire d.message.payload = .error e) : resolvedBy c d es = [] := by
  unfold resolvedBy
  cases looked with
  | unread _ unasked idle =>
    rw [unasked, idle]
    rfl
  | unhandled read => exact nomatch unread.symm.trans read
  | handled read => exact nomatch unread.symm.trans read

/-- Without a run of a handler, a task that can be read is resolved when it is skipped. -/
theorem resolvedBy_idle {payload : Payload} (looked : LookedUp d es)
    (read : Payload.ofWire d.message.payload = .ok payload) (idle : es.runs = []) :
    resolvedBy c d es = (skipped? c d (d.message.key, false)).toList := by
  unfold resolvedBy
  cases looked with
  | unread unread => exact nomatch unread.symm.trans read
  | unhandled _ asked =>
    rw [idle, asked, filterMap_singleton]
    rfl
  | handled _ _ ran => exact nomatch idle.symm.trans ran

/-- A task whose handler ran is resolved when it has succeeded. -/
theorem resolvedBy_ran {run : TaskRun} (looked : LookedUp d es) (ran : es.runs = [run]) :
    resolvedBy c d es = (finished? d run).toList := by
  unfold resolvedBy
  cases looked with
  | unread _ _ idle => exact nomatch idle.symm.trans ran
  | unhandled _ _ idle => exact nomatch idle.symm.trans ran
  | handled _ asked =>
    have hkept : skipped? c d (d.message.key, true) = none := if_neg fun h => nomatch h.1
    rw [ran, asked, filterMap_singleton, filterMap_singleton, hkept]
    exact List.append_nil _

/-! ## Effects -/

/-- **What a resolution does to the broker**, for a delivery of index `i` whose task is `id`, and
which tasks it resolves. -/
inductive Effect (topics : Topics) (group : String) (d : Delivery) (i : Nat) (id : String)
    (b : State) : Resolution → List String → State → Prop where
  | failed (f : Failure) : Effect topics group d i id b (.error f) [] b
  | settled {o : Outcome} {tasks : List String} (done : o = .succeeded ∨ o = .skipped)
      (resolves : d.message.header? Header.correlationId = some id → tasks = [id]) :
      Effect topics group d i id b (.ok o) tasks
        (b.changeGroup topics.active group (·.settle i))
  | requeued :
      Effect topics group d i id b (.ok .requeued) []
        (b.changeGroup topics.active group (·.requeue i))
  | forwarded {o : Outcome} {topic : String} {m : Message}
      (route : (o = .retried ∧ topic = topics.delayed) ∨
        (o = .deadLettered ∧ topic = topics.deadLetter))
      (named : m.header? Header.correlationId = some id) :
      Effect topics group d i id b (.ok o) []
        ((b.publish topic m).changeGroup topics.active group (·.settle i))

/-- A copy is published and the delivery settled, unless the handle was closed before. -/
theorem routed_serving {t : String} {m : Message} {es : Exchanges ν}
    {r : Except TransportError Unit} (hd : d.position = State.position topic i)
    (hi : i ≤ Text.maxNat64) (hr : Routed d t m es r) (h : Serving topic group p es p') :
    (r = .ok () ∧ p.closed = false ∧
      p'.broker = (p.broker.publish t m).changeGroup topic group (·.settle i)) ∨
    (r = .error .closed ∧ p'.closed = true ∧ p'.broker = p.broker) := by
  cases hr with
  | refused e =>
    rcases serving_publish_cons h with ⟨he, -, -⟩ | ⟨he, hs⟩
    · cases he
    · obtain ⟨hb, hc⟩ := serving_nil_iff.mp hs
      exact Or.inr ⟨he, hc rfl, hb⟩
  | acked r =>
    rcases serving_publish_cons h with ⟨-, hopen, hs⟩ | ⟨he, -⟩
    · obtain ⟨rfl, c, -, hs⟩ := serving_ack_cons hd hi hs
      exact Or.inl ⟨rfl, hopen, (serving_nil_iff.mp hs).1⟩
    · cases he

theorem acked_serving {es : Exchanges ν} {r : Except TransportError Unit}
    (hd : d.position = State.position topic i) (hi : i ≤ Text.maxNat64) (hr : es = [⟨.ack d, r⟩])
    (h : Serving topic group p es p') :
    r = .ok () ∧ p'.broker = p.broker.changeGroup topic group (·.settle i) := by
  subst hr
  obtain ⟨rfl, c, -, hs⟩ := serving_ack_cons hd hi h
  exact ⟨rfl, (serving_nil_iff.mp hs).1⟩

/-- A run that fails resolves nothing. -/
theorem FailedRun.resolvedBy_eq {pol : Retry.Policy ν} {token : CancelToken} {id error : String}
    {seen : Instant} {payload : Payload} {ending : HandlerEnd} {t : Trail}
    (h : FailedRun pol token d id seen es payload ending error t) (looked : LookedUp d es) :
    resolvedBy c d es = [] := by
  rw [resolvedBy_ran looked h.ran, finished?_eq_none h.failed]
  rfl

/-- **Processing a delivery through a handle** has one of the effects. -/
theorem process_effect [Number.Arithmetic ν] {draw : Retry.Draw ν} {token : CancelToken}
    {pol : Retry.Policy ν} {id : String} {seen : Instant} {r : Resolution} {topics : Topics}
    (ht : c.topics = topics) (hd : d.position = State.position topics.active i)
    (hi : i ≤ Text.maxNat64) (hp : Processed c draw token d pol id seen es r)
    (looked : LookedUp d es) (h : Serving topics.active group p es p') :
    Effect topics group d i id p.broker r (resolvedBy c d es) p'.broker := by
  subst ht
  have hs := serving_transport h
  have idle (ht : es.transport = []) : p'.broker = p.broker := by
    rw [ht] at hs
    exact (serving_nil_iff.mp hs).1
  -- the three ways in which a copy is forwarded
  have routed {o : Outcome} {t : String} {m : Message} {x : Except TransportError Unit}
      (route : (o = .retried ∧ t = c.topics.delayed) ∨
        (o = .deadLettered ∧ t = c.topics.deadLetter))
      (named : m.header? Header.correlationId = some id) (hr : Routed d t m es.transport x) :
      Effect c.topics group d i id p.broker (settled o x) [] p'.broker := by
    rcases routed_serving hd hi hr hs with ⟨rfl, -, hb⟩ | ⟨rfl, -, hb⟩
    · rw [hb]
      exact .forwarded route named
    · rw [hb]
      exact .failed _
  cases hp with
  | malformed unread idle trail lastError clock hr =>
    rw [resolvedBy_unread looked unread]
    refine routed (Or.inr ⟨rfl, rfl⟩) ?_ hr
    rw [correlationId_deadLetterCopy, trail.correlationId]
  | skipped read quiet unhandled rule acked =>
    obtain ⟨rfl, hb⟩ := acked_serving hd hi acked hs
    rw [hb, resolvedBy_idle looked read quiet, skipped?, if_pos ⟨rfl, rule⟩]
    refine .settled (Or.inr rfl) fun hid => ?_
    rw [hid]
    rfl
  | requeued read quiet unhandled rule rejected =>
    rw [rejected] at hs
    obtain ⟨rfl, hb⟩ := serving_reject hd hi hs
    have hkept : skipped? c d (d.message.key, false) = none := by
      refine if_neg fun hskip => ?_
      rw [rule] at hskip
      cases hskip.2
    rw [hb, resolvedBy_idle looked read quiet, hkept]
    exact .requeued
  | succeeded read ran acked =>
    obtain ⟨rfl, hb⟩ := acked_serving hd hi acked hs
    rw [hb, resolvedBy_ran looked ran, finished?, if_pos ⟨rfl, rfl, by rw [read]; rfl⟩]
    exact .settled (Or.inl rfl) fun _ => rfl
  | retried f again wait clock onTime hr =>
    rw [f.resolvedBy_eq looked]
    refine routed (Or.inl ⟨rfl, rfl⟩) ?_ hr
    rw [correlationId_retryCopy, f.trail.correlationId]
  | neverDue f again wait clock never hidle =>
    rw [idle hidle, f.resolvedBy_eq looked]
    exact .failed _
  | noBackoff f again wait hidle =>
    rw [idle hidle, f.resolvedBy_eq looked]
    exact .failed _
  | givenUp f again clock hr =>
    rw [f.resolvedBy_eq looked]
    refine routed (Or.inr ⟨rfl, rfl⟩) ?_ hr
    rw [correlationId_deadLetterCopy, f.trail.correlationId]

end TaskQueue.Worker
