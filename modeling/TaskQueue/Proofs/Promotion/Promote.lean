import TaskQueue.Promotion.Loop
import TaskQueue.Proofs.Engine.Exchange
import TaskQueue.Proofs.Promotion.DelayQueue

/-!
# What holding and promoting come to

A promoter holds a delivery without asking anything of the broker. When it promotes a batch, it
publishes and acknowledges one delivery after the other, up to the first answer that is an error.

Results:

* `hold_ends`: a delivery is held under its due time, or else under the time at which it came;
* `promoteAll_ends`, `promoteDue_ends`: the exchanges of a batch, delivery by delivery;
* `Promoted.ends`, `Promoted.promoteDue_ends`: every such course may be taken.
-/

namespace TaskQueue.Promotion

open Time Engine Script

variable {ν : Type}

/-- A batch is published to a topic and acknowledged, up to the first answer that is an error. -/
inductive Promoted (topic : String) (now : Instant) :
    List Delivery → Exchanges ν → Except TransportError Unit → Prop where
  | nil : Promoted topic now [] [] (.ok ())
  | refused (d : Delivery) (ds : List Delivery) (e : TransportError) :
      Promoted topic now (d :: ds) [⟨.publish topic (promotedCopy d.message now), .error e⟩]
        (.error e)
  | stuck (d : Delivery) (ds : List Delivery) (e : TransportError) :
      Promoted topic now (d :: ds) [⟨.publish topic (promotedCopy d.message now), .ok ()⟩,
        ⟨.ack d, .error e⟩] (.error e)
  | cons (d : Delivery) {ds : List Delivery} {es : Exchanges ν} {r : Except TransportError Unit}
      (h : Promoted topic now ds es r) :
      Promoted topic now (d :: ds) (⟨.publish topic (promotedCopy d.message now), .ok ()⟩ ::
        ⟨.ack d, .ok ()⟩ :: es) r

/-- **A batch is promoted delivery by delivery.** -/
theorem promoteAll_ends {c : Config} {now : Instant} {ds : List Delivery} {es : Exchanges ν}
    {r : Except TransportError Unit} (h : (promoteAll c now ds).Ends es r) :
    Promoted c.topics.active now ds es r := by
  induction ds generalizing es with
  | nil =>
    obtain ⟨rfl, rfl⟩ := ends_done_iff.mp h
    exact .nil
  | cons d ds ih =>
    unfold promoteAll at h
    simp only [request_bind, ends_ask_iff] at h
    obtain ⟨x, es₁, rfl, h⟩ := h
    cases x with
    | error e =>
      simp only [pure_eq_done, ends_done_iff] at h
      obtain ⟨rfl, rfl⟩ := h
      exact .refused d ds e
    | ok u =>
      simp only [ends_ask_iff] at h
      obtain ⟨y, es₂, rfl, h⟩ := h
      cases y with
      | error e =>
        simp only [pure_eq_done, ends_done_iff] at h
        obtain ⟨rfl, rfl⟩ := h
        exact .stuck d ds e
      | ok u => exact .cons d (ih h)

/-- **What is due is promoted**, and what is not due stays held. -/
theorem promoteDue_ends {c : Config} {q q' : Held} {es : Exchanges ν}
    {r : Except TransportError Unit} (h : (promoteDue c q).Ends es (r, q')) :
    ∃ now es', es = ⟨.now, now⟩ :: es' ∧ q' = q.dropDue now ∧
      Promoted c.topics.active now (q.takeDue now) es' r := by
  unfold promoteDue at h
  simp only [request_bind, ends_ask_iff] at h
  obtain ⟨now, es₁, rfl, h⟩ := h
  obtain ⟨es₂, es₃, r', rfl, h₁, h₂⟩ := ends_bind_iff.mp h
  obtain ⟨rfl, heq⟩ := ends_done_iff.mp h₂
  obtain ⟨rfl, rfl⟩ := Prod.mk.inj heq
  refine ⟨now, es₂, ?_, rfl, promoteAll_ends h₁⟩
  rw [List.append_nil]

/-- Every such course may be taken. -/
theorem Promoted.ends {c : Config} {now : Instant} {ds : List Delivery} {es : Exchanges ν}
    {r : Except TransportError Unit} (h : Promoted c.topics.active now ds es r) :
    (promoteAll c now ds).Ends es r := by
  induction h with
  | nil => exact .done _
  | refused d ds e => exact .ask _ _ (.done _)
  | stuck d ds e => exact .ask _ _ (.ask _ _ (.done _))
  | cons d _ ih => exact .ask _ _ (.ask _ _ ih)

theorem Promoted.promoteDue_ends {c : Config} {q : Held} {now : Instant} {es : Exchanges ν}
    {r : Except TransportError Unit} (h : Promoted c.topics.active now (q.takeDue now) es r) :
    (promoteDue c q).Ends (⟨.now, now⟩ :: es) (r, q.dropDue now) := by
  unfold promoteDue
  rw [request_bind]
  exact .ask _ _ (ends_bind_iff.mpr ⟨es, [], r, (List.append_nil es).symm, h.ends, .done _⟩)

/-- The one delivery that is held is promoted when it is due. -/
theorem promoteDue_push (c : Config) (due : Instant) (d : Delivery) :
    (promoteDue c ((∅ : Held).push due d) : Program ν _).Ends
      [⟨.now, due⟩, ⟨.publish c.topics.active (promotedCopy d.message due), .ok ()⟩,
        ⟨.ack d, .ok ()⟩]
      (.ok (), ∅) := by
  have taken : ((∅ : Held).push due d).takeDue due = [d] :=
    DelayQueue.takeDue_push (List.forall_mem_nil _)
  have batch : Promoted c.topics.active due (((∅ : Held).push due d).takeDue due)
      ([⟨.publish c.topics.active (promotedCopy d.message due), .ok ()⟩, ⟨.ack d, .ok ()⟩] :
        Exchanges ν) (.ok ()) := by
    rw [taken]
    exact .cons d .nil
  have run := batch.promoteDue_ends
  rw [DelayQueue.dropDue_push (List.forall_mem_nil _)] at run
  exact run

/-- A delivery that says when it is due is held until then. -/
theorem hold_told {q : Held} {d : Delivery} {due : Instant} (h : dueTime? d.message = some due) :
    (hold q d : Program ν Held).Ends [] (q.push due d) := by
  unfold hold
  rw [h]
  exact .done _

/-- **A delivery is held until it is due**; one that does not say so is due when it comes. -/
theorem hold_ends {q q' : Held} {d : Delivery} {es : Exchanges ν}
    (h : (hold q d).Ends es q') :
    es.transport = [] ∧ es.newIds = [] ∧ ∃ due, q' = q.push due d ∧
      (dueTime? d.message = some due ∨ (dueTime? d.message = none ∧ es = [⟨.now, due⟩])) := by
  unfold hold at h
  cases hd : dueTime? d.message with
  | some due =>
    simp only [hd, pure_eq_done, ends_done_iff] at h
    obtain ⟨rfl, rfl⟩ := h
    exact ⟨rfl, rfl, due, rfl, Or.inl rfl⟩
  | none =>
    simp only [hd, request_bind, pure_eq_done, ends_ask_iff, ends_done_iff] at h
    obtain ⟨now, es₁, rfl, rfl, rfl⟩ := h
    exact ⟨rfl, rfl, now, rfl, Or.inr ⟨rfl, rfl⟩⟩

/-- A promoted batch asks nothing but of the broker. -/
theorem Promoted.transport {topic : String} {now : Instant} {ds : List Delivery}
    {es : Exchanges ν} {r : Except TransportError Unit} (h : Promoted topic now ds es r) :
    es.transport = es ∧ es.newIds = [] := by
  induction h with
  | nil => exact ⟨rfl, rfl⟩
  | refused => exact ⟨rfl, rfl⟩
  | stuck => exact ⟨rfl, rfl⟩
  | cons d _ ih => exact ⟨congrArg (_ :: _ :: ·) ih.1, ih.2⟩

end TaskQueue.Promotion
