import TaskQueue.Client.Enqueue
import TaskQueue.Promotion.Loop
import TaskQueue.Proofs.Ledger.Basic
import TaskQueue.Proofs.Worker.Effect

/-!
# Clients, workers and promoters at one broker

Any number of components work on one queue, each through a handle of its own. They take steps in any
order: a client puts a task on the queue, a worker takes a delivery and processes it, a promoter
takes a delivery and holds it or promotes what is due, and a handle is closed, between the steps or
in the middle of one. What a component is answered from elsewhere than the broker, such as the time,
the policy and the end of a handler, may be anything; only identifiers are new when they are given
out.

Results:

* `Step.grows`: in every step, logs only grow.
-/

namespace TaskQueue.Ledger

open Broker Engine Promotion Time

/-- A component, by its number among those of its kind. -/
inductive Member where
  | client (n : Nat)
  | worker (n : Nat)
  | promoter (n : Nat)
  deriving DecidableEq

/-- The books of a queue and the components that work on it. -/
structure System extends Books where
  /-- Whose handle is closed. -/
  closed : Member → Bool
  /-- What each promoter holds. -/
  held : Nat → Held
  /-- All identifiers that were given out. -/
  issued : List String

namespace System

/-- Nothing has happened yet. -/
def start : System := ⟨⟨∅, [], []⟩, fun _ => false, fun _ => ∅, []⟩

/-- The broker as a component has it. -/
def port (s : System) (a : Member) : Port := ⟨s.broker, s.closed a⟩

/-- After a component's exchanges, which led to `p`. -/
def after {ν : Type} (s : System) (a : Member) (p : Port) (es : Exchanges ν) : System :=
  { s with
    broker := p.broker
    closed := fun a' => if a' = a then p.closed else s.closed a'
    issued := es.newIds ++ s.issued }

/-- A promoter holds other deliveries. -/
def holding (s : System) (n : Nat) (q : Held) : System :=
  { s with held := fun n' => if n' = n then q else s.held n' }

end System

/-- What a step comes to. -/
inductive Event where
  | enqueued (r : Except Client.ClientError String)
  | worked (d : Delivery) (r : Worker.Resolution)
  | held (n : Nat) (d : Delivery)
  | promoted (n : Nat) (now : Instant) (r : Except TransportError Unit)
  | idled
  | shut (a : Member)

/-- The task that was accepted, if one was. -/
def acceptedBy : Except Client.ClientError String → List String
  | .ok id => [id]
  | .error _ => []

/-- **One step** of one of the components. -/
inductive Step (ν : Type) [Number.Arithmetic ν] (q : Setup) : System → Event → System → Prop where
  | enqueued {s : System} {n : Nat} {topic group task : String} {payload : Payload}
      {es : Exchanges ν} {r : Except Client.ClientError String} {p : Port}
      (run : (Client.enqueue q.topics task payload).Ends es r)
      (served : Serving topic group (s.port (.client n)) es p)
      (new : ∀ id ∈ es.newIds, id ∉ s.issued) :
      Step ν q s (.enqueued r)
        { s.after (.client n) p es with accepted := acceptedBy r ++ s.accepted }
  | enqueuedDelayed {s : System} {n : Nat} {topic group task : String} {payload : Payload}
      {delay : Span} {es : Exchanges ν} {r : Except Client.ClientError String} {p : Port}
      (run : (Client.enqueueDelayed q.topics task payload delay).Ends es r)
      (served : Serving topic group (s.port (.client n)) es p)
      (new : ∀ id ∈ es.newIds, id ∉ s.issued) :
      Step ν q s (.enqueued r)
        { s.after (.client n) p es with accepted := acceptedBy r ++ s.accepted }
  /-- A worker receives a delivery and processes it. Its exchanges show what it resolves. -/
  | worked {s : System} {n : Nat} {c : Worker.Config} {draw : Retry.Draw ν} {token : CancelToken}
      {wait : Span} {d : Delivery} {es : Exchanges ν} {r : Worker.Resolution} {p : Port}
      (topics : c.topics = q.topics) (group : c.group = q.workers)
      (run : (Worker.process c draw token d).Ends es r)
      (served : Serving q.topics.active q.workers (s.port (.worker n))
        (⟨.receive wait, .delivery d⟩ :: es) p)
      (new : ∀ id ∈ es.newIds, id ∉ s.issued) :
      Step ν q s (.worked d r)
        { s.after (.worker n) p es with resolved := s.resolved ++ Worker.resolvedBy c d es }
  /-- A promoter receives a delivery and holds it. -/
  | held {s : System} {n : Nat} {wait : Span} {d : Delivery} {es : Exchanges ν} {w : Held}
      {p : Port}
      (run : (hold (s.held n) d).Ends es w)
      (served : Serving q.topics.delayed q.promoters (s.port (.promoter n))
        (⟨.receive wait, .delivery d⟩ :: es) p) :
      Step ν q s (.held n d) ((s.after (.promoter n) p es).holding n w)
  /-- A promoter promotes what is due. -/
  | promoted {s : System} {n : Nat} {c : Promotion.Config} {now : Instant} {es : Exchanges ν}
      {r : Except TransportError Unit} {w : Held} {p : Port} (topics : c.topics = q.topics)
      (run : (promoteDue c (s.held n)).Ends (⟨.now, now⟩ :: es) (r, w))
      (served : Serving q.topics.delayed q.promoters (s.port (.promoter n)) (⟨.now, now⟩ :: es) p) :
      Step ν q s (.promoted n now r)
        ((s.after (.promoter n) p (⟨.now, now⟩ :: es)).holding n w)
  /-- A component joins its group, or receives nothing. -/
  | idled {s : System} {a : Member} {topic group : String} {e : Exchange (Answer ν)} {p : Port}
      (idle : (∃ t g x, e = ⟨.subscribe t g, x⟩) ∨
        ∃ wait x, e = ⟨.receive wait, x⟩ ∧ ∀ d, x ≠ .delivery d)
      (served : Serving topic group (s.port a) [e] p) :
      Step ν q s .idled (s.after a p [e])
  | shut (s : System) (a : Member) :
      Step ν q s (.shut a)
        { s with closed := fun a' => if a' = a then true else s.closed a' }

/-- **The states that some order of steps leads to.** -/
inductive Reachable (ν : Type) [Number.Arithmetic ν] (q : Setup) : System → Prop where
  | start : Reachable ν q .start
  | step {s s' : System} {e : Event} (h : Reachable ν q s) (hs : Step ν q s e s') :
      Reachable ν q s'

variable {ν : Type} [Number.Arithmetic ν] {q : Setup} {s s' : System} {e : Event}

/-- Logs only grow. -/
theorem Step.grows (h : Step ν q s e s') : s.broker.Grows s'.broker := by
  cases h with
  | enqueued _ served => exact served.grows
  | enqueuedDelayed _ served => exact served.grows
  | worked _ _ _ served => exact served.grows
  | held _ served => exact served.grows
  | promoted _ _ served => exact served.grows
  | idled _ served => exact served.grows
  | shut => exact State.Grows.refl _

end TaskQueue.Ledger
