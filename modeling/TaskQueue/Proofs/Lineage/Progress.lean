import TaskQueue.Proofs.Broker.Next
import TaskQueue.Proofs.Lineage.Basic
import TaskQueue.Proofs.Promotion.DueTime
import TaskQueue.Proofs.Promotion.Run
import TaskQueue.Proofs.Worker.Effect

/-!
# A lineage goes on

A message that is underway can take its next hop: whenever a worker receives it there is an attempt,
however the handler is to end, and whenever a promoter receives it or promotes it there is a hop of
the promoter. It takes an open handle, a backoff that can be computed and a due time that is an
instant.

Results:

* `exists_serves`: an open handle answers everything;
* `exists_attempt`, `exists_hold`, `exists_promotion`: the next hop of each kind;
* `exists_return`: a failure that is retried brings the message back.
-/

namespace TaskQueue.Lineage

open Broker Engine Ledger Promotion Time Retry

variable {ν : Type} {q : Setup} {pol : Policy ν} {now : Instant} {ending : HandlerEnd}
  {topic group : String} {b b' : State} {es : Exchanges ν} {d : Delivery} {i : Nat}

/-- Answers by one policy and one clock reading, for a task whose handler ends in one way. -/
def Chosen (pol : Policy ν) (now : Instant) (ending : HandlerEnd) : Exchange (Answer ν) → Prop
  | ⟨.policy, p⟩ => p = pol
  | ⟨.now, t⟩ => t = now
  | ⟨.handles _, handled⟩ => handled = true
  | ⟨.handle _ _, e⟩ => e = ending
  | _ => True

/-- **An open handle answers everything**, and stays open. -/
theorem exists_serves (topic group : String) (pol : Policy ν) (now : Instant) (ending : HandlerEnd)
    (b : State) (r : Request) :
    ∃ x b', Serves topic group ⟨b, false⟩ ⟨r, x⟩ ⟨b', false⟩ ∧ Chosen pol now ending ⟨r, x⟩ := by
  cases r with
  | publish t m => exact ⟨.ok (), _, .published b t m, trivial⟩
  | subscribe t g => exact ⟨.ok (), _, .subscribed b t g, trivial⟩
  | receive wait =>
    cases hr : b.receive topic group with
    | mk d? b' =>
      cases d? with
      | none => exact ⟨.nothing, b', .nothing wait hr, trivial⟩
      | some d => exact ⟨.delivery d, b', .delivered wait hr, trivial⟩
  | ack d =>
    cases ha : b.ack topic group d.position with
    | ok b' => exact ⟨.ok (), b', .acked false ha, trivial⟩
    | error e => exact ⟨.error e, b, .ackFailed ha, trivial⟩
  | reject d requeue =>
    cases ha : b.reject topic group d.position requeue with
    | ok b' => exact ⟨.ok (), b', .rejected false ha, trivial⟩
    | error e => exact ⟨.error e, b, .rejectFailed ha, trivial⟩
  | policy => exact ⟨pol, b, .elsewhere _ rfl, rfl⟩
  | now => exact ⟨now, b, .elsewhere _ rfl, rfl⟩
  | handles task => exact ⟨true, b, .elsewhere _ rfl, rfl⟩
  | handle c p => exact ⟨ending, b, .elsewhere _ rfl, rfl⟩
  | newId => exact ⟨"", b, .elsewhere _ rfl, trivial⟩
  | isCancelled => exact ⟨false, b, .elsewhere _ rfl, trivial⟩
  | tick => exact ⟨false, b, .elsewhere _ rfl, trivial⟩
  | pause wait => exact ⟨(), b, .elsewhere _ rfl, trivial⟩
  | remember p t => exact ⟨(), b, .elsewhere _ rfl, trivial⟩
  | forget p => exact ⟨(), b, .elsewhere _ rfl, trivial⟩
  | count c => exact ⟨(), b, .elsewhere _ rfl, trivial⟩
  | fire t => exact ⟨(), b, .elsewhere _ rfl, trivial⟩

/-- A script comes to its end at an open handle, with chosen answers. -/
theorem exists_serving {α : Type} (topic group : String) (pol : Policy ν) (now : Instant)
    (ending : HandlerEnd) (s : Program ν α) (b : State) :
    ∃ (es : Exchanges ν) (a : α) (b' : State), s.Ends es a ∧
      Serving topic group ⟨b, false⟩ es ⟨b', false⟩ ∧ ∀ e ∈ es, Chosen pol now ending e := by
  refine Script.exists_ends (R := fun b es b' => Serving topic group ⟨b, false⟩ es ⟨b', false⟩ ∧
    ∀ e ∈ es, Chosen pol now ending e) (fun b => ⟨.nil _, fun e he => absurd he List.not_mem_nil⟩)
    (fun b r => ?_) s b
  obtain ⟨x, b', hx, hc⟩ := exists_serves topic group pol now ending b r
  refine ⟨x, b', fun es b'' h => ⟨.cons hx h.1, ?_⟩⟩
  intro e he
  rcases List.mem_cons.mp he with rfl | he
  · exact hc
  · exact h.2 e he

/-- A run of a handler is one of the exchanges. -/
theorem ending_of_chosen (h : ∀ e ∈ es, Chosen pol now ending e) {run : TaskRun}
    (hrun : run ∈ es.runs) : run.ending = ending := by
  obtain ⟨⟨r, x⟩, he, hx⟩ := List.mem_filterMap.mp hrun
  cases r with
  | handle c p =>
    obtain rfl := Option.some.inj hx
    exact h _ he
  | _ => cases hx

/-! ## Attempts -/

/-- **A worker that receives the message makes an attempt**, and the handler may end in any way. -/
theorem exists_attempt [Number.Arithmetic ν] {payload : Payload} {draw : Draw ν}
    (hr : b.receive q.topics.active q.workers = (some d, b'))
    (here : d.position = State.position q.topics.active i) (hi : i ≤ Text.maxNat64)
    (hread : Payload.ofWire d.message.payload = .ok payload)
    (waits : ∀ n, 1 ≤ n → n ≤ budget pol →
      ∃ w due, pol.backoff draw n = .ok w ∧ Worker.dueAfter now w = some due)
    (ending : HandlerEnd) :
    ∃ es b'' st, Hop q pol b (.ready i) es b'' st ∧
      es.runs.map (fun run => run.ending) = [ending] := by
  obtain ⟨es, r, b'', run, served, chosen⟩ := exists_serving q.topics.active q.workers pol now
    ending (Worker.process (.ofTopics q.topics) draw .never d) b'
  have served' := serving_transport served
  obtain ⟨p, id, receivedAt, hp, -, -, h⟩ := Worker.process_ends run
  obtain rfl : p = pol := chosen _ hp
  have waits := waits _ (Nat.le_add_left 1 _) (Worker.priorFailures_lt p d.message)
  have handled : ⟨.handles d.message.key, false⟩ ∉ es := fun hmem => nomatch chosen _ hmem
  -- the handle stays open, so that nothing that goes to the broker fails
  have routed {t : String} {m : Message} {x : Except TransportError Unit}
      (h : Worker.Routed d t m es.transport x) : x = .ok () := by
    rcases Worker.routed_serving here hi h served' with ⟨hx, -, -⟩ | ⟨-, hc, -⟩
    · exact hx
    · cases hc
  have ended {o : Worker.Outcome} {x : Except TransportError Unit} {ran : TaskRun}
      (hres : r = Worker.settled o x) (hx : x = .ok ()) (hruns : es.runs = [ran]) :
      ∃ es b'' st, Hop q p b (.ready i) es b'' st ∧
        es.runs.map (fun run => run.ending) = [ending] := by
    subst hx
    subst hres
    refine ⟨es, b'', _, .attempted rfl (.cons (.delivered .zero hr) served) here run
      (fun p' hp' => chosen _ hp') handled, ?_⟩
    rw [hruns, List.map_cons, List.map_nil]
    congr 1
    exact ending_of_chosen chosen (by rw [hruns]; exact List.mem_cons_self)
  generalize hres : r = r' at h
  cases h with
  | malformed unread =>
    rw [hread] at unread
    cases unread
  | skipped read idle unhandled => exact absurd unhandled handled
  | requeued read idle unhandled => exact absurd unhandled handled
  | succeeded read ran acked =>
    exact ended hres (Worker.acked_serving here hi acked served').1 ran
  | @retried payload' ending' error t backoff now' due x f again wait clock onTime h =>
    exact ended hres (routed h) f.ran
  | neverDue f again wait clock never =>
    obtain ⟨w, due, hw, hdue⟩ := waits
    obtain rfl := chosen _ clock
    rw [wait] at hw
    obtain rfl := Except.ok.inj hw
    rw [never] at hdue
    cases hdue
  | noBackoff f again wait =>
    obtain ⟨w, due, hw, -⟩ := waits
    rw [wait] at hw
    cases hw
  | givenUp f again clock h => exact ended hres (routed h) f.ran

/-- A worker that receives the message and is not disturbed makes an attempt. -/
theorem Hop.of_undisturbed [Number.Arithmetic ν] {c : Worker.Config} {draw : Draw ν}
    {token : CancelToken} {b₁ : State} {ran : TaskRun} {sent : Exchanges ν} {o : Worker.Outcome}
    {st : Stage} (hst : stageAfter q b i o = st) (topics : c.topics = q.topics)
    (hr : b.receive q.topics.active q.workers = (some d, b₁))
    (here : d.position = State.position q.topics.active i)
    (run : (Worker.process c draw token d).Ends es (.ok o))
    (h : Worker.Undisturbed pol d ran sent es)
    (served : Serving q.topics.active q.workers ⟨b₁, false⟩ sent ⟨b', false⟩) :
    Hop q pol b (.ready i) es b' st := by
  rw [← h.transport] at served
  rw [← hst]
  exact .attempted topics (.cons (.delivered .zero hr) (.of_transport served)) here run h.policy
    h.handled

/-! ## Promotion -/

/-- A promoter that receives the message holds it. -/
theorem exists_hold [Number.Arithmetic ν] (pol : Policy ν)
    (hr : b.receive q.topics.delayed q.promoters = (some d, b'))
    (here : d.position = State.position q.topics.delayed i) :
    ∃ b'', Hop q pol b (.waiting i) [] b'' (.held d) := by
  obtain ⟨es, w, b'', run, served, -⟩ := exists_serving q.topics.delayed q.promoters pol .epoch
    .succeeded (hold ∅ d) b'
  exact ⟨b'', .held (.cons (.delivered .zero hr) served) here run⟩

/-- What is due is taken. -/
theorem mem_takeDue {w : Held} {due : Instant} (hmem : ⟨due, d⟩ ∈ w.waiting) (hdue : due ≤ now) :
    ∃ n : Nat, (w.takeDue now)[n]? = some d := by
  have hd : ⟨due, d⟩ ∈ (w.waiting.takeWhile fun v => v.due ≤ now) ++
      (w.waiting.dropWhile fun v => v.due ≤ now) := by
    rw [List.takeWhile_append_dropWhile]
    exact hmem
  rcases List.mem_append.mp hd with hd | hd
  · exact List.mem_iff_getElem?.mp (List.mem_map.mpr ⟨_, hd, rfl⟩)
  · exact absurd hdue (w.lt_of_mem_dropDue hd)

/-- **A promoter that holds the message promotes it** when it is due. -/
theorem exists_promotion [Number.Arithmetic ν] (pol : Policy ν) (b : State) {w : Held}
    {due : Instant} (hmem : ⟨due, d⟩ ∈ w.waiting) (hdue : due ≤ now)
    (hw : ∀ v ∈ w.waiting, ∃ k ≤ Text.maxNat64,
      v.item.position = State.position q.topics.delayed k) :
    ∃ b' n, Hop q pol b (.held d) [] b' (.ready n) := by
  obtain ⟨es, ⟨r, w'⟩, b', run, served, chosen⟩ := exists_serving q.topics.delayed q.promoters pol
    now .succeeded (promoteDue (.ofTopics q.topics) w) b
  obtain ⟨now', es', rfl, -, hp⟩ := promoteDue_ends run
  obtain rfl : now' = now := chosen _ List.mem_cons_self
  have served' := serving_transport served
  rw [show Exchanges.transport ((⟨.now, now'⟩ : Exchange (Answer ν)) :: es') = es' from
    hp.transport.1] at served'
  obtain ⟨rfl, -, -⟩ := hp.served served' rfl fun d' hd' => by
    obtain ⟨v, hv, rfl, -⟩ := DelayQueue.le_of_mem_takeDue hd'
    exact hw v hv
  obtain ⟨n, hn⟩ := mem_takeDue hmem hdue
  exact ⟨b', _, .promoted rfl hn run served⟩

/-! ## There and back -/

variable (pol) in
/-- **A failure that is retried brings the message back** to the active log, when it is due. -/
theorem exists_return [Number.Arithmetic ν] {m : Message} {draw : Draw ν} {payload : Payload}
    {id error : String} {backoff : Span} {due : Instant} {i j : Nat}
    (next : b.NextAt q.topics.active q.workers i)
    (there : (b.messages q.topics.active)[i]? = some m) (hi : i ≤ Text.maxNat64)
    (nextDelayed : b.NextAt q.topics.delayed q.promoters j)
    (hj : (b.messages q.topics.delayed).length = j) (hj64 : j ≤ Text.maxNat64)
    (named : m.header? Header.correlationId = some id)
    (read : Payload.ofWire m.payload = .ok payload) (failed : ending.error? = some error)
    (again : pol.retries ((Worker.priorFailures pol m).toNat + 1) error = true)
    (wait : pol.backoff draw ((Worker.priorFailures pol m).toNat + 1) = .ok backoff)
    (onTime : Worker.dueAfter now backoff = some due) :
    ∃ es b' copy,
      Path q pol b (.ready i) es b' (.ready (b.messages q.topics.active).length) ∧
      es.runs.map TaskRun.ending = [ending] ∧ copies q es = [copy] ∧
      Worker.RetryOf ⟨State.position q.topics.active i, m, 1⟩ id (Worker.firstSeen m now)
        ((Worker.priorFailures pol m).toNat + 1) error backoff due copy ∧
      b'.messages q.topics.active =
        b.messages q.topics.active ++ [promotedCopy copy (told due)] ∧
      b'.messages q.topics.deadLetter = b.messages q.topics.deadLetter ∧
      b'.NextAt q.topics.active q.workers (i + 1) := by
  let d : Delivery := ⟨State.position q.topics.active i, m, 1⟩
  obtain ⟨b₁, hr₁, next₁, logs₁, others₁⟩ := next.exists_receive there
  obtain ⟨es, copy, run, calm, copied⟩ := Worker.exists_retried (.ofTopics q.topics) d pol draw
    .never named read failed again wait onTime
  -- the worker publishes the copy and settles the message
  let b₂ := (b₁.publish q.topics.delayed copy).changeGroup q.topics.active q.workers (·.settle i)
  have attempted : Hop q pol b (.ready i) es b₂ (.waiting j) :=
    .of_undisturbed (hj ▸ rfl) rfl hr₁ rfl run calm (serving_forward rfl hi)
  have logs₂ (t : String) : b₂.messages t = (b₁.publish q.topics.delayed copy).messages t :=
    State.messages_changeGroup _ _ _ _ t
  -- a promoter takes the copy and holds it
  have next₂ : b₂.NextAt q.topics.delayed q.promoters j := by
    refine (nextDelayed.congr (others₁ _ _ ?_)).publish.settle
    exact fun h => q.delayed_ne_active h.1
  obtain ⟨b₃, hr₃, -, logs₃, others₃⟩ := next₂.exists_receive (m := copy) (by
    rw [logs₂, State.messages_publish_self, logs₁, ← hj, List.getElem?_concat_length])
  let d' : Delivery := ⟨State.position q.topics.delayed j, copy, 1⟩
  have hdue : dueTime? d'.message = some (told due) :=
    dueTime?_of_headers copied.scheduledFor copied.scheduledAt
  have held : Hop q pol b₂ (.waiting j) [] b₃ (.held d') :=
    .held (.cons (.delivered .zero hr₃) (.nil _)) rfl (hold_told (q := ∅) hdue)
  -- and promotes it when it is due
  let b₄ := (b₃.publish q.topics.active (promotedCopy copy (told due))).changeGroup
    q.topics.delayed q.promoters (·.settle j)
  have logs₄ (t : String) : b₄.messages t =
      (b₃.publish q.topics.active (promotedCopy copy (told due))).messages t :=
    State.messages_changeGroup _ _ _ _ t
  have taken : ((∅ : Held).push (told due) d').takeDue (told due) = [d'] :=
    DelayQueue.takeDue_push (List.forall_mem_nil _)
  have promoted : Hop q pol b₃ (.held d') [] b₄
      (.ready ((b₃.messages q.topics.active).length + 0)) :=
    .promoted rfl (taken ▸ rfl) (promoteDue_push (.ofTopics q.topics) (told due) d')
      (.cons (.elsewhere _ rfl) (serving_forward rfl hj64))
  have hactive : b₃.messages q.topics.active = b.messages q.topics.active := by
    rw [logs₃, logs₂, State.messages_publish_of_ne q.delayed_ne_active.symm, logs₁]
  have path := ((Path.refl.tail attempted).tail held).tail promoted
  rw [hactive, Nat.add_zero] at path
  refine ⟨_, b₄, copy, path, ?_, ?_, copied, ?_, ?_, ?_⟩
  · rw [List.append_nil, List.append_nil, List.nil_append, calm.ran]
    rfl
  · rw [List.append_nil, List.append_nil, List.nil_append, copies, ← Exchanges.published_transport,
      calm.transport]
    simp [Exchanges.published, Exchange.published?, Worker.Config.ofTopics]
  · rw [logs₄, State.messages_publish_self, hactive]
  · rw [logs₄, State.messages_publish_of_ne q.deadLetter_ne_active, logs₃, logs₂,
      State.messages_publish_of_ne q.deadLetter_ne_delayed, logs₁]
  · refine (State.NextAt.congr (b := b₂) ?_ (others₃ _ _ ?_)).publish.settle
    · exact next₁.publish.settle
    · exact fun h => q.delayed_ne_active h.1.symm

end TaskQueue.Lineage
