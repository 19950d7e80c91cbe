import TaskQueue.Proofs.Worker.Process

/-!
# What a call asks for

Whatever is answered to it, a call on a delivery asks for a few things only. It settles no other
delivery and keeps no other trail, and it looks up no handler but that of the delivery's task. This
is read off the scripts, so it is also true of a call that is broken off.

Results:

* `conclude_asks`, `forward_asks` and so on: the parts of processing look up no handler;
* `process_asks`: **what a call on a delivery asks for.**
-/

namespace TaskQueue.Worker

open Engine Retry Script

variable {ν : Type}

/-- What a call on a delivery asks for, apart from whether the task has a handler. -/
inductive Concerns (d : Delivery) : Request → Prop where
  | now : Concerns d .now
  | newId : Concerns d .newId
  | policy : Concerns d .policy
  | count (c : Counter) : Concerns d (.count c)
  | handle (x : Context) (p : Payload) : Concerns d (.handle x p)
  | pause (wait : Time.Span) : Concerns d (.pause wait)
  | publish (topic : String) (m : Message) : Concerns d (.publish topic m)
  | ack : Concerns d (.ack d)
  | reject (requeue : Bool) : Concerns d (.reject d requeue)
  | remember (t : Trail) : Concerns d (.remember d.position.render t)
  | forget : Concerns d (.forget d.position.render)

variable (d : Delivery)

theorem conclude_asks (o : Outcome) (x : Except TransportError Unit) :
    (conclude o x : Program ν Resolution).Asks (Concerns d) := by
  cases x with
  | ok u => exact ⟨.count _, fun _ => trivial⟩
  | error e => trivial

theorem forward_asks (topic : String) (m : Message) :
    (forward d topic m : Program ν _).Asks (Concerns d) := by
  unfold forward
  simp only [request_bind, asks_ask_iff]
  refine ⟨.publish _ _, fun x => ?_⟩
  cases x with
  | ok u => exact ⟨.ack, fun _ => ⟨.forget, fun _ => trivial⟩⟩
  | error e => exact ⟨.forget, fun _ => trivial⟩

theorem deadLetter_asks (topics : Topics) (t : Trail) :
    (deadLetter topics d t : Program ν _).Asks (Concerns d) := by
  unfold deadLetter
  simp only [request_bind, asks_ask_iff]
  exact ⟨.now, fun now => ⟨.remember _, fun _ =>
    (forward_asks d _ _).bind fun x => conclude_asks d _ x⟩⟩

theorem scheduleRetry_asks (topics : Topics) (t : Trail) (backoff : Time.Span) :
    (scheduleRetry topics d t backoff : Program ν _).Asks (Concerns d) := by
  unfold scheduleRetry
  simp only [request_bind, asks_ask_iff]
  refine ⟨.now, fun now => ?_⟩
  cases dueAfter now backoff with
  | none => trivial
  | some due =>
    exact ⟨.remember _, fun _ => (forward_asks d _ _).bind fun x => conclude_asks d _ x⟩

theorem resolveUnknown_asks (c : Config) :
    (resolveUnknown c d : Program ν _).Asks (Concerns d) := by
  unfold resolveUnknown
  cases c.unknownTask with
  | skip => exact ⟨.ack, fun x => conclude_asks d _ x⟩
  | requeue => exact ⟨.pause _, fun _ => ⟨.reject _, fun x => conclude_asks d _ x⟩⟩

theorem identify_asks (m : Message) : (identify m : Program ν _).Asks (Concerns d) := by
  unfold identify
  cases m.header? Header.correlationId with
  | some id => trivial
  | none => exact ⟨.newId, fun _ => trivial⟩

section

variable [Number.Arithmetic ν] (c : Config) (draw : Draw ν) (token : CancelToken) (p : Policy ν)
  (t : Trail)

theorem handleFailure_asks (topics : Topics) :
    (handleFailure topics p draw d t).Asks (Concerns d) := by
  unfold handleFailure
  split
  · split
    · exact scheduleRetry_asks d _ _ _
    · trivial
  · exact deadLetter_asks d _ _

theorem runTask_asks (id : String) (payload : Payload) :
    (runTask c draw token d p id t payload).Asks (Concerns d) := by
  unfold runTask
  simp only [request_bind, asks_ask_iff]
  refine ⟨.now, fun startedAt => ⟨.handle _ _, fun ending => ?_⟩⟩
  cases ending.error? with
  | none =>
    refine ⟨.ack, fun x => ?_⟩
    cases x with
    | ok u => exact ⟨.forget, fun _ => conclude_asks d _ _⟩
    | error e => trivial
  | some error =>
    exact ⟨.now, fun failedAt => ⟨.remember _, fun _ => handleFailure_asks d draw p _ _⟩⟩

/-- **What a call on a delivery asks for.** -/
theorem process_asks : (process c draw token d).Asks
    fun r => Concerns d r ∨ r = .handles d.message.key := by
  have within {α : Type} {s : Program ν α} (h : s.Asks (Concerns d)) :
      s.Asks fun r => Concerns d r ∨ r = .handles d.message.key :=
    h.imp fun _ => .inl
  rw [process_eq]
  refine ⟨.inl (.count _), fun _ => ⟨.inl .now, fun receivedAt => ⟨.inl .policy, fun p =>
    (within (identify_asks d _)).bind fun id => ?_⟩⟩⟩
  unfold resolve
  cases Payload.ofWire d.message.payload with
  | error e =>
    exact ⟨.inl .now, fun failedAt => ⟨.inl (.remember _), fun _ =>
      within (deadLetter_asks d _ _)⟩⟩
  | ok payload =>
    refine ⟨.inl .now, fun parsedAt => ⟨.inr rfl, fun handled => ?_⟩⟩
    cases handled with
    | true => exact within (runTask_asks d c draw token p _ id payload)
    | false => exact within (resolveUnknown_asks d c)

end

end TaskQueue.Worker
