import TaskQueue.Proofs.Client.Enqueue
import TaskQueue.Proofs.Engine.Port
import TaskQueue.Proofs.Text.Tokens
import TaskQueue.Proofs.Time.Minute

/-!
# A task is put on a queue, or nothing happens

A client has a handle to a broker and calls it while the clock shows one time (`Calls`). Three
things may be wrong with a task: its due time is no instant, its name is blank, or the handle is
closed. The first of these that holds, in this order, is the error; nothing has changed then. When
none of them holds, one message has been published and the answer is its identifier.

Results:

* `isSome_addSpan?_iff`: from when on a delay leads to no instant any more;
* `calls_settles`, `exists_calls`: how a call may go, and that it comes to its end;
* `enqueue_all_or_nothing`: **enqueueing is all or nothing**.
-/

namespace TaskQueue.Client

open Time Text Engine Script Broker

variable {ν α : Type}

/-! ## Due times in range -/

/-- From here the delay ends within the last second of the range or before it. A leap second counts
as the second before it. -/
def Reaches (now : Instant) (delay : Span) : Prop :=
  now.seconds + ((now.nanos % nanosPerSecond + delay.nanos) / nanosPerSecond : Nat) ≤ maxSecond

instance (now : Instant) (delay : Span) : Decidable (Reaches now delay) :=
  inferInstanceAs (Decidable (_ ≤ _))

theorem isSome_addSpan?_iff {now : Instant} {delay : Span} :
    (now.addSpan? delay).isSome = true ↔ Reaches now delay := by
  unfold Instant.addSpan?
  split
  · constructor
    · intro h
      obtain ⟨due, hdue⟩ := Option.isSome_iff_exists.mp h
      unfold Reaches
      rw [← Instant.seconds_of_add? hdue]
      exact due.inRange.2
    · exact Instant.add?_isSome
  · next long =>
    -- such a delay is longer than all of the range
    refine iff_of_false Bool.false_ne_true fun h => ?_
    have hfirst := now.inRange.1
    unfold Reaches at h
    unfold Instant.maxMove nanosPerSecond minSecond maxSecond at *
    omega

/-- The last second that can be told is reached to its end. -/
example : Reaches ⟨maxSecond, 0, by decide, by decide, by decide⟩ ⟨999999999, by decide⟩ ∧
    ¬ Reaches ⟨maxSecond, 0, by decide, by decide, by decide⟩ ⟨1000000000, by decide⟩ := by decide

/-- Without a delay the due time is the time that the clock shows. -/
theorem reaches_of_isZero {now : Instant} {delay : Span} (h : delay.isZero = true) :
    Reaches now delay := by
  have hnanos : delay.nanos = 0 := eq_of_beq h
  have hlast := now.inRange.2
  unfold Reaches nanosPerSecond
  omega

/-! ## Calls -/

/-- A client has called the broker through its handle, which nobody closed in the meantime, while
the clock showed one time. -/
def Calls (now : Instant) (s : Program ν α) (p : Port) (a : α) (p' : Port) : Prop :=
  ∃ (topic group : String) (es : Exchanges ν), s.Ends es a ∧ Serving topic group p es p' ∧
    p'.closed = p.closed ∧ ∀ t ∈ es.readings, t = now

/-- Where a task goes. -/
def lane (topics : Topics) (delay : Span) : String :=
  if delay.isZero then topics.active else topics.delayed

/-- **How a call to put a task on a queue may go.** -/
inductive Settles (topics : Topics) (task : String) (payload : Payload) (delay : Span)
    (now : Instant) (p : Port) : Except ClientError String → Port → Prop where
  | never (beyond : ¬ Reaches now delay) :
      Settles topics task payload delay now p (.error (.invalidDelay delay)) p
  | unnamed (reached : Reaches now delay) (blank : trim task = "") :
      Settles topics task payload delay now p (.error .emptyTaskName) p
  | shut (reached : Reaches now delay) (named : trim task ≠ "")
      (closed : p.closed = true) :
      Settles topics task payload delay now p (.error (.transport .closed)) p
  | sent {m : Message} {id : String} (reached : Reaches now delay)
      (named : trim task ≠ "") (opened : p.closed = false) (bears : Bears m task payload id) :
      Settles topics task payload delay now p (.ok id)
        ⟨p.broker.publish (lane topics delay) m, false⟩

variable {topics : Topics} {task : String} {payload : Payload} {delay : Span} {now : Instant}
  {p p' : Port} {r : Except ClientError String} {id : String} {m : Message} {es : Exchanges ν}

theorem named_of_taskMessage (h : taskMessage? task payload id = some m) : trim task ≠ "" := by
  intro blank
  have none : taskMessage? task payload id = none :=
    taskMessage?_eq_none_iff.mpr (trim_eq_empty_iff.mp blank)
  exact nomatch h.symm.trans none

theorem port_eq {b : State} {c : Bool} (broker : p.broker = b) (closed : p.closed = c) :
    p = ⟨b, c⟩ := by
  subst broker closed
  rfl

/-- A call that publishes one message at its end. -/
theorem settles_of_published {topic group : String} {x : Except TransportError Unit}
    (reached : Reaches now delay) (named : trim task ≠ "")
    (bears : Bears m task payload id)
    (serving : Serving topic group p (⟨.publish (lane topics delay) m, x⟩ :: ([] : Exchanges ν)) p')
    (steady : p'.closed = p.closed) :
    Settles topics task payload delay now p (answered id x) p' := by
  rcases serving_publish_cons serving with ⟨rfl, opened, rest⟩ | ⟨rfl, rest⟩
  · obtain ⟨hbroker, -⟩ := serving_nil_iff.mp rest
    obtain rfl := port_eq hbroker (steady.trans opened)
    exact .sent reached named opened bears
  · obtain ⟨hbroker, hclosed⟩ := serving_nil_iff.mp rest
    obtain rfl : p' = p := port_eq hbroker steady
    exact .shut reached named (hclosed rfl)

/-- **A call settles the task** in one of these ways. -/
theorem calls_settles
    (h : Calls now (enqueueDelayed topics task payload delay : Program ν _) p r p') :
    Settles topics task payload delay now p r p' := by
  obtain ⟨topic, group, es, run, serving, steady, clock⟩ := h
  have serving := serving_transport serving
  have idle (hes : es.transport = []) : p' = p := by
    rw [hes, serving_nil_iff] at serving
    exact port_eq serving.1 steady
  cases hz : delay.isZero with
  | true =>
    rw [enqueueDelayed_of_isZero hz, enqueue_ends_iff] at run
    have hlane : topics.active = lane topics delay := (if_pos hz).symm
    cases run with
    | unnamed id blank =>
      cases idle rfl
      exact .unnamed (reaches_of_isZero hz) (trim_eq_empty_iff.mpr blank)
    | sent told x named =>
      rw [hlane] at serving
      exact settles_of_published (reaches_of_isZero hz) (named_of_taskMessage named)
        ((bears_taskMessage named).prompt told) serving steady
  | false =>
    rw [enqueueDelayed_ends_iff hz] at run
    have hlane : topics.delayed = lane topics delay := (if_neg (by simp [hz])).symm
    cases run with
    | @never told beyond =>
      cases idle rfl
      obtain rfl : told = now := clock told List.mem_cons_self
      refine .never fun reached => ?_
      rw [← isSome_addSpan?_iff, beyond] at reached
      cases reached
    | @unnamed told due id moved blank =>
      cases idle rfl
      obtain rfl : told = now := clock told List.mem_cons_self
      have reached : Reaches told delay := isSome_addSpan?_iff.mp (moved ▸ rfl)
      exact .unnamed reached (trim_eq_empty_iff.mpr blank)
    | @sent told due id m x moved named =>
      obtain rfl : told = now := clock told List.mem_cons_self
      have reached : Reaches told delay := isSome_addSpan?_iff.mp (moved ▸ rfl)
      rw [hlane] at serving
      exact settles_of_published reached (named_of_taskMessage named)
        ((bears_taskMessage named).delayed told due) serving steady

/-! ## Calls come to their end -/

theorem exists_publishes (ν : Type) (t : String) (m : Message) (p : Port) :
    ∃ x p',
      Serving "" "" p (⟨.publish t m, x⟩ :: ([] : Exchanges ν)) p' ∧ p'.closed = p.closed := by
  obtain ⟨b, _ | _⟩ := p
  · exact ⟨.ok (), _, .cons (.published b t m) (.nil _), rfl⟩
  · exact ⟨.error .closed, _, .cons (.publishRefused b t m) (.nil _), rfl⟩

/-- **A call comes to its end.** -/
theorem exists_calls (topics : Topics) (task : String) (payload : Payload) (delay : Span)
    (now : Instant) (p : Port) :
    ∃ r p', Calls now (enqueueDelayed topics task payload delay : Program ν _) p r p' := by
  have aside {p' : Port} {e : Exchange (Answer ν)} {es : Exchanges ν} (he : e.isTransport = false)
      (h : Serving "" "" p es p') : Serving "" "" p (e :: es) p' := .cons (.elsewhere p he) h
  cases hz : delay.isZero with
  | true =>
    unfold Calls
    simp only [enqueueDelayed_of_isZero hz, enqueue_ends_iff]
    cases hm : taskMessage? task payload "" with
    | none =>
      exact ⟨_, p, "", "", _, .unnamed "" (taskMessage?_eq_none_iff.mp hm), aside rfl (.nil p), rfl,
        fun t ht => absurd ht List.not_mem_nil⟩
    | some m =>
      obtain ⟨x, p', serving, steady⟩ := exists_publishes ν topics.active
        (m.setHeader Header.enqueuedAt now.renderMillis) p
      exact ⟨_, p', "", "", _, .sent now x hm, aside rfl (aside rfl serving), steady,
        fun t ht => List.mem_singleton.mp ht⟩
  | false =>
    unfold Calls
    simp only [enqueueDelayed_ends_iff hz]
    cases hdue : now.addSpan? delay with
    | none =>
      exact ⟨_, p, "", "", _, .never hdue, aside rfl (.nil p), rfl,
        fun t ht => List.mem_singleton.mp ht⟩
    | some due =>
      cases hm : taskMessage? task payload "" with
      | none =>
        exact ⟨_, p, "", "", _, .unnamed "" hdue (taskMessage?_eq_none_iff.mp hm),
          aside rfl (aside rfl (.nil p)), rfl, fun t ht => List.mem_singleton.mp ht⟩
      | some m =>
        obtain ⟨x, p', serving, steady⟩ := exists_publishes ν topics.delayed
          (delayedMessage m task now due) p
        exact ⟨_, p', "", "", _, .sent x hdue hm, aside rfl (aside rfl serving), steady,
          fun t ht => List.mem_singleton.mp ht⟩

/-! ## The verdict -/

/-- One message more stands in one log, and nothing else has changed. -/
structure Gains (p : Port) (topic : String) (m : Message) (p' : Port) : Prop where
  log : p'.broker.messages topic = p.broker.messages topic ++ [m]
  others : ∀ t, t ≠ topic → p'.broker.messages t = p.broker.messages t
  groups : ∀ t g, p'.broker.groupOf t g = p.broker.groupOf t g
  closed : p'.closed = p.closed

/-- **What a call answers and what it leaves behind.** -/
structure Verdict (topics : Topics) (task : String) (payload : Payload) (delay : Span)
    (now : Instant) (p : Port) (r : Except ClientError String) (p' : Port) : Prop where
  accepted : (∃ id, r = .ok id) ↔
    trim task ≠ "" ∧ (delay.isZero = true ∨ Reaches now delay) ∧ p.closed = false
  invalidDelay : r = .error (.invalidDelay delay) ↔ ¬ Reaches now delay
  emptyTaskName : r = .error .emptyTaskName ↔ Reaches now delay ∧ trim task = ""
  closed : r = .error (.transport .closed) ↔
    Reaches now delay ∧ trim task ≠ "" ∧ p.closed = true
  published : ∀ id, r = .ok id →
    ∃ m, Bears m task payload id ∧ Gains p (lane topics delay) m p'
  unchanged : ∀ e, r = .error e → p' = p

theorem Settles.verdict (h : Settles topics task payload delay now p r p') :
    Verdict topics task payload delay now p r p' := by
  cases h with
  | never beyond =>
    have late : ¬ delay.isZero = true := mt reaches_of_isZero beyond
    exact {
      accepted := by simp [late, beyond]
      invalidDelay := iff_of_true rfl beyond
      emptyTaskName := by simp [beyond]
      closed := by simp [beyond]
      published := nofun
      unchanged := fun _ _ => rfl }
  | unnamed reached blank =>
    exact {
      accepted := by simp [blank]
      invalidDelay := by simp [reached]
      emptyTaskName := iff_of_true rfl ⟨reached, blank⟩
      closed := by simp [blank]
      published := nofun
      unchanged := fun _ _ => rfl }
  | shut reached named closed =>
    exact {
      accepted := by simp [closed]
      invalidDelay := by simp [reached]
      emptyTaskName := by simp [named]
      closed := iff_of_true rfl ⟨reached, named, closed⟩
      published := nofun
      unchanged := fun _ _ => rfl }
  | @sent m id reached named opened bears =>
    exact {
      accepted := iff_of_true ⟨id, rfl⟩ ⟨named, .inr reached, opened⟩
      invalidDelay := by simp [reached]
      emptyTaskName := by simp [named]
      closed := by simp [opened]
      published := by
        intro id' hid
        cases hid
        exact ⟨m, bears, ⟨State.messages_publish_self _ _ _,
          fun t ht => State.messages_publish_of_ne ht, State.groupOf_publish _ _ _, opened.symm⟩⟩
      unchanged := nofun }

/-- **A task is put on a queue by one message, or nothing happens.** -/
structure AllOrNothing (ν : Type) (topics : Topics) (task : String) (payload : Payload)
    (delay : Span) (now : Instant) (p : Port) : Prop where
  ends : ∃ r p', Calls now (enqueueDelayed topics task payload delay : Program ν _) p r p'
  verdict : ∀ r p', Calls now (enqueueDelayed topics task payload delay : Program ν _) p r p' →
    Verdict topics task payload delay now p r p'
  /-- Without a delay, a task is put on the queue at once. -/
  prompt : ∀ r p', Calls now (enqueue topics task payload : Program ν _) p r p' ↔
    Calls now (enqueueDelayed topics task payload .zero : Program ν _) p r p'

theorem enqueue_all_or_nothing (topics : Topics) (task : String) (payload : Payload) (delay : Span)
    (now : Instant) (p : Port) : AllOrNothing ν topics task payload delay now p where
  ends := exists_calls topics task payload delay now p
  verdict _ _ h := (calls_settles h).verdict
  prompt _ _ := by rw [enqueueDelayed_of_isZero rfl]

end TaskQueue.Client
