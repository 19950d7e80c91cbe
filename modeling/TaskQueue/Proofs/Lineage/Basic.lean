import TaskQueue.Proofs.Engine.Port
import TaskQueue.Proofs.Ledger.Basic
import TaskQueue.Promotion.Loop
import TaskQueue.Worker.Process

/-!
# Following one message

A message that fails goes on as a copy: from the active log to the delayed one, where a promoter
holds it until it is due, and back to the active log. A `Path` follows it, run by run, over a broker
that others use at the same time. Paths are about components that do not fail: a worker's delivery
is resolved, a promoter's batch is promoted, the task has a handler and the policy is always the
same.

A path keeps the exchanges of the workers that the message came by. From them one reads how often a
handler ran (`runs`), the copies that wait (`copies`) and the dead letters (`records`).
-/

namespace TaskQueue.Lineage

open Broker Engine Ledger Promotion Time Retry

variable {ν : Type}

/-- Where the message is. -/
inductive Stage where
  /-- An entry of the active log. -/
  | ready (i : Nat)
  /-- An entry of the delayed log. -/
  | waiting (i : Nat)
  /-- A promoter holds it. -/
  | held (d : Delivery)
  | succeeded
  /-- An entry among the dead letters. -/
  | givenUp (i : Nat)

/-- Where a message is after its processing at a broker. -/
def stageAfter (q : Setup) (b : State) (i : Nat) : Worker.Outcome → Stage
  | .succeeded => .succeeded
  | .retried => .waiting (b.messages q.topics.delayed).length
  | .deadLettered => .givenUp (b.messages q.topics.deadLetter).length
  | .skipped | .requeued => .ready i

/-- **What may come next**, with the exchanges of the worker, if it is one's turn. -/
inductive Hop [Number.Arithmetic ν] (q : Setup) (pol : Policy ν) :
    State → Stage → Exchanges ν → State → Stage → Prop where
  /-- A worker receives the message and processes it. -/
  | attempted {b b' : State} {shut : Bool} {i : Nat} {c : Worker.Config} {draw : Draw ν}
      {token : CancelToken} {wait : Span} {d : Delivery} {es : Exchanges ν} {o : Worker.Outcome}
      (topics : c.topics = q.topics)
      (served : Serving q.topics.active q.workers ⟨b, false⟩
        (⟨.receive wait, .delivery d⟩ :: es) ⟨b', shut⟩)
      (here : d.position = State.position q.topics.active i)
      (run : (Worker.process c draw token d).Ends es (.ok o))
      (fixed : ∀ p, ⟨.policy, p⟩ ∈ es → p = pol)
      (handled : ⟨.handles d.message.key, false⟩ ∉ es) :
      Hop q pol b (.ready i) es b' (stageAfter q b i o)
  /-- A promoter receives the message and holds it. -/
  | held {b b' : State} {shut : Bool} {i : Nat} {wait : Span} {d : Delivery} {es : Exchanges ν}
      {w w' : Held}
      (served : Serving q.topics.delayed q.promoters ⟨b, false⟩
        (⟨.receive wait, .delivery d⟩ :: es) ⟨b', shut⟩)
      (here : d.position = State.position q.topics.delayed i) (run : (hold w d).Ends es w') :
      Hop q pol b (.waiting i) [] b' (.held d)
  /-- A promoter promotes what is due; the message is the `n`-th of these. -/
  | promoted {b b' : State} {shut : Bool} {c : Promotion.Config} {w w' : Held} {now : Instant}
      {es : Exchanges ν} {d : Delivery} {n : Nat} (topics : c.topics = q.topics)
      (due : (w.takeDue now)[n]? = some d)
      (run : (promoteDue c w).Ends (⟨.now, now⟩ :: es) (.ok (), w'))
      (served : Serving q.topics.delayed q.promoters ⟨b, false⟩ (⟨.now, now⟩ :: es) ⟨b', shut⟩) :
      Hop q pol b (.held d) [] b' (.ready ((b.messages q.topics.active).length + n))
  /-- Others publish and consume. -/
  | others {b b' : State} (st : Stage) (grows : b.Grows b') : Hop q pol b st [] b' st

/-- **A way of the message** from one stage to another, with the exchanges of its workers. -/
inductive Path [Number.Arithmetic ν] (q : Setup) (pol : Policy ν) (b₀ : State) (st₀ : Stage) :
    Exchanges ν → State → Stage → Prop where
  | refl : Path q pol b₀ st₀ [] b₀ st₀
  | tail {es es' : Exchanges ν} {b b' : State} {st st' : Stage} (h : Path q pol b₀ st₀ es b st)
      (hop : Hop q pol b st es' b' st') : Path q pol b₀ st₀ (es ++ es') b' st'

/-- The copies that were published to wait for their next run. -/
def copies (q : Setup) (es : Exchanges ν) : List Message := es.published q.topics.delayed

/-- The dead letters that were published. -/
def records (q : Setup) (es : Exchanges ν) : List Message := es.published q.topics.deadLetter

/-- How often a handler has succeeded. -/
def successes (es : Exchanges ν) : Nat := es.runs.countP fun r => r.ending = .succeeded

/-- How often a handler may run. -/
def budget (pol : Policy ν) : Nat := max pol.maxRetries.toNat 1

/-- The lists of the policy permit a retry after this failure. -/
def Permits (pol : Policy ν) (error : String) : Prop :=
  Policy.mentions pol.forbidden error = false ∧
    (pol.allowed = [] ∨ Policy.mentions pol.allowed error = true)

/-- The lineage has come to its end. -/
def Stage.Ended : Stage → Prop
  | .succeeded | .givenUp _ => True
  | .ready _ | .waiting _ | .held _ => False

/-- The message is where it is said to be. -/
def At (q : Setup) (b : State) (m : Message) : Stage → Prop
  | .ready i => (b.messages q.topics.active)[i]? = some m
  | .waiting i => (b.messages q.topics.delayed)[i]? = some m
  | .held d => d.message = m
  | .succeeded => False
  | .givenUp _ => False

@[simp] theorem copies_append (q : Setup) (es es' : Exchanges ν) :
    copies q (es ++ es') = copies q es ++ copies q es' := Exchanges.published_append _ _

@[simp] theorem records_append (q : Setup) (es es' : Exchanges ν) :
    records q (es ++ es') = records q es ++ records q es' := Exchanges.published_append _ _

@[simp] theorem successes_append (es es' : Exchanges ν) :
    successes (es ++ es') = successes es + successes es' := by
  unfold successes
  rw [Exchanges.runs_append, List.countP_append]

/-- A message stays where it is when others publish. -/
theorem At.of_grows {q : Setup} {b b' : State} {m : Message} {st : Stage} (h : At q b m st)
    (hb : b.Grows b') : At q b' m st := by
  cases st with
  | ready i => exact hb.getElem? h
  | waiting i => exact hb.getElem? h
  | held d => exact h
  | succeeded => exact h
  | givenUp i => exact h

end TaskQueue.Lineage
