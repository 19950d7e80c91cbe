import TaskQueue.Proofs.Broker.State
import TaskQueue.Proofs.Engine.Exchange

/-!
# Exchanges through a handle

A component reaches a broker through a handle of its own, which may be closed at any time. A closed
handle publishes nothing and hands nothing out, but deliveries are still settled through it. What
goes elsewhere than to the broker is answered in any way at all.

Results:

* `serving_nil_iff`, `serving_cons_iff`: the exchanges through a handle, one by one;
* `serving_transport`, `Serving.of_transport`: only what goes to the broker changes it;
* `Serving.grows`, `Serving.messages`: logs only grow, and by what is published;
* `serving_publish_cons`, `serving_ack_cons`, `serving_reject`: what is published, and what is done
  with a delivery whose position is an index of the log.
-/

namespace TaskQueue.Engine

open Broker

variable {ν : Type}

/-- A broker as a component has it through its handle. -/
structure Port where
  broker : State
  closed : Bool

/-- **One exchange through a handle**, by a consumer of a group of a topic. -/
inductive Serves (topic group : String) : Port → Exchange (Answer ν) → Port → Prop where
  | published (b : State) (t : String) (m : Message) :
      Serves topic group ⟨b, false⟩ ⟨.publish t m, .ok ()⟩ ⟨b.publish t m, false⟩
  | publishRefused (b : State) (t : String) (m : Message) :
      Serves topic group ⟨b, true⟩ ⟨.publish t m, .error .closed⟩ ⟨b, true⟩
  | subscribed (b : State) (t g : String) :
      Serves topic group ⟨b, false⟩ ⟨.subscribe t g, .ok ()⟩ ⟨b.subscribe t g, false⟩
  | subscribeRefused (b : State) (t g : String) :
      Serves topic group ⟨b, true⟩ ⟨.subscribe t g, .error .closed⟩ ⟨b, true⟩
  | cancelled (p : Port) (wait : Time.Span) :
      Serves topic group p ⟨.receive wait, .cancelled⟩ p
  | receiveRefused (b : State) (wait : Time.Span) :
      Serves topic group ⟨b, true⟩ ⟨.receive wait, .failed .closed⟩ ⟨b, true⟩
  | nothing {b b' : State} (wait : Time.Span) (h : b.receive topic group = (none, b')) :
      Serves topic group ⟨b, false⟩ ⟨.receive wait, .nothing⟩ ⟨b', false⟩
  | delivered {b b' : State} {d : Delivery} (wait : Time.Span)
      (h : b.receive topic group = (some d, b')) :
      Serves topic group ⟨b, false⟩ ⟨.receive wait, .delivery d⟩ ⟨b', false⟩
  | acked {b b' : State} {d : Delivery} (c : Bool) (h : b.ack topic group d.position = .ok b') :
      Serves topic group ⟨b, c⟩ ⟨.ack d, .ok ()⟩ ⟨b', c⟩
  | ackFailed {p : Port} {d : Delivery} {e : TransportError}
      (h : p.broker.ack topic group d.position = .error e) :
      Serves topic group p ⟨.ack d, .error e⟩ p
  | rejected {b b' : State} {d : Delivery} {requeue : Bool} (c : Bool)
      (h : b.reject topic group d.position requeue = .ok b') :
      Serves topic group ⟨b, c⟩ ⟨.reject d requeue, .ok ()⟩ ⟨b', c⟩
  | rejectFailed {p : Port} {d : Delivery} {requeue : Bool} {e : TransportError}
      (h : p.broker.reject topic group d.position requeue = .error e) :
      Serves topic group p ⟨.reject d requeue, .error e⟩ p
  | elsewhere (p : Port) {e : Exchange (Answer ν)} (h : e.isTransport = false) :
      Serves topic group p e p

/-- **Exchanges through a handle**, one after the other. Before each of them the handle may be
closed. -/
inductive Serving (topic group : String) : Port → Exchanges ν → Port → Prop where
  | nil (p : Port) : Serving topic group p [] p
  | shut {b : State} {c : Bool} {es : Exchanges ν} {p : Port}
      (h : Serving topic group ⟨b, true⟩ es p) : Serving topic group ⟨b, c⟩ es p
  | cons {p p' p'' : Port} {e : Exchange (Answer ν)} {es : Exchanges ν}
      (h : Serves topic group p e p') (hs : Serving topic group p' es p'') :
      Serving topic group p (e :: es) p''

variable {topic group : String} {p p' p'' : Port} {e : Exchange (Answer ν)} {es : Exchanges ν}

/-! ## One exchange -/

theorem serves_publish {t : String} {m : Message} {x : Except TransportError Unit}
    (h : Serves topic group p (⟨.publish t m, x⟩ : Exchange (Answer ν)) p') :
    (p.closed = false ∧ x = .ok () ∧ p' = ⟨p.broker.publish t m, false⟩) ∨
    (p.closed = true ∧ x = .error .closed ∧ p' = p) := by
  cases h with
  | published => exact Or.inl ⟨rfl, rfl, rfl⟩
  | publishRefused => exact Or.inr ⟨rfl, rfl, rfl⟩
  | elsewhere _ h => cases h

theorem serves_delivery {wait : Time.Span} {d : Delivery}
    (h : Serves topic group p (⟨.receive wait, .delivery d⟩ : Exchange (Answer ν)) p') :
    p.closed = false ∧ p'.closed = false ∧
      p.broker.receive topic group = (some d, p'.broker) := by
  cases h with
  | delivered _ h => exact ⟨rfl, rfl, h⟩
  | elsewhere _ h => cases h

theorem serves_ack {d : Delivery} {x : Except TransportError Unit}
    (h : Serves topic group p (⟨.ack d, x⟩ : Exchange (Answer ν)) p') :
    (∃ b, p.broker.ack topic group d.position = .ok b ∧ x = .ok () ∧ p' = ⟨b, p.closed⟩) ∨
    (∃ e, p.broker.ack topic group d.position = .error e ∧ x = .error e ∧ p' = p) := by
  cases h with
  | acked _ h => exact Or.inl ⟨_, h, rfl, rfl⟩
  | ackFailed h => exact Or.inr ⟨_, h, rfl, rfl⟩
  | elsewhere _ h => cases h

theorem serves_reject {d : Delivery} {requeue : Bool} {x : Except TransportError Unit}
    (h : Serves topic group p (⟨.reject d requeue, x⟩ : Exchange (Answer ν)) p') :
    (∃ b, p.broker.reject topic group d.position requeue = .ok b ∧ x = .ok () ∧
      p' = ⟨b, p.closed⟩) ∨
    (∃ e, p.broker.reject topic group d.position requeue = .error e ∧ x = .error e ∧ p' = p) := by
  cases h with
  | rejected _ h => exact Or.inl ⟨_, h, rfl, rfl⟩
  | rejectFailed h => exact Or.inr ⟨_, h, rfl, rfl⟩
  | elsewhere _ h => cases h

/-- What does not go to the broker leaves it alone. -/
theorem Serves.eq_of_not_transport (h : Serves topic group p e p') (he : e.isTransport = false) :
    p' = p := by
  cases h with
  | elsewhere => rfl
  | cancelled => rfl
  | publishRefused => rfl
  | subscribeRefused => rfl
  | receiveRefused => rfl
  | ackFailed => rfl
  | rejectFailed => rfl
  | published => cases he
  | subscribed => cases he
  | nothing => cases he
  | delivered => cases he
  | acked => cases he
  | rejected => cases he

/-- Logs only grow. -/
theorem Serves.grows (h : Serves topic group p e p') : p.broker.Grows p'.broker := by
  cases h with
  | published b t m => exact State.grows_publish b t m
  | subscribed b t g => exact State.grows_subscribe b t g
  | nothing _ h => exact State.grows_receive h
  | delivered _ h => exact State.grows_receive h
  | acked _ h => exact .of_messages_eq (State.messages_ack h)
  | rejected _ h => exact .of_messages_eq (State.messages_reject h)
  | _ => exact State.Grows.refl _

/-- **Logs grow by what is published**, and by nothing else. -/
theorem Serves.messages (h : Serves topic group p e p') (t : String) :
    p'.broker.messages t = p.broker.messages t ++ (e.published? t).toList := by
  have same {b' : State} (hb : ∀ t, b'.messages t = p.broker.messages t)
      (he : e.published? t = none) :
      b'.messages t = p.broker.messages t ++ (e.published? t).toList := by
    rw [he, hb, Option.toList_none, List.append_nil]
  cases h with
  | published b t' m =>
    simp only [State.messages_publish, Exchange.published?]
    by_cases ht : t = t'
    · rw [if_pos ht, if_pos ht.symm, ht]
      rfl
    · rw [if_neg ht, if_neg fun h => ht h.symm, Option.toList_none, List.append_nil]
  | subscribed b t' g => exact same (fun t => State.messages_subscribe b t' g t) rfl
  | nothing _ h =>
    refine same (fun t => ?_) rfl
    rw [State.receive_nothing h, State.messages_subscribe]
  | delivered _ h =>
    obtain ⟨i, g, ht⟩ := State.receive_taken h
    exact same ht.messages rfl
  | acked _ h => exact same (State.messages_ack h) rfl
  | rejected _ h => exact same (State.messages_reject h) rfl
  | elsewhere _ h =>
    refine same (fun _ => rfl) ?_
    obtain ⟨r, x⟩ := e
    cases r with
    | publish t' m => cases h
    | _ => rfl
  | _ => exact same (fun _ => rfl) rfl

/-- A closed handle stays closed. -/
theorem Serves.closed (h : Serves topic group p e p') (hc : p.closed = true) :
    p'.closed = true := by
  cases h with
  | published => cases hc
  | subscribed => cases hc
  | nothing => cases hc
  | delivered => cases hc
  | _ => exact hc

/-! ## One exchange after the other -/

theorem serving_nil_iff :
    Serving topic group p ([] : Exchanges ν) p' ↔
      p'.broker = p.broker ∧ (p.closed = true → p'.closed = true) := by
  constructor
  · intro h
    generalize hes : ([] : Exchanges ν) = es at h
    induction h with
    | nil => exact ⟨rfl, id⟩
    | shut _ ih => exact ⟨(ih hes).1, fun _ => (ih hes).2 rfl⟩
    | cons => cases hes
  · rintro ⟨hb, hc⟩
    obtain ⟨b, c⟩ := p
    obtain ⟨b', c'⟩ := p'
    obtain rfl : b' = b := hb
    cases c' with
    | true => exact .shut (.nil _)
    | false =>
      cases c with
      | true => cases hc rfl
      | false => exact .nil _

theorem serving_cons_iff :
    Serving topic group p (e :: es) p'' ↔
      ∃ c p', (p.closed = true → c = true) ∧ Serves topic group ⟨p.broker, c⟩ e p' ∧
        Serving topic group p' es p'' := by
  constructor
  · intro h
    generalize hes : e :: es = es' at h
    induction h with
    | nil => cases hes
    | shut _ ih =>
      obtain ⟨c, p', hc, h⟩ := ih hes
      exact ⟨c, p', fun _ => hc rfl, h⟩
    | cons h hs =>
      obtain ⟨rfl, rfl⟩ := List.cons.inj hes
      exact ⟨_, _, id, h, hs⟩
  · rintro ⟨c, p', hc, h, hs⟩
    obtain ⟨b, c'⟩ := p
    have h := Serving.cons h hs
    cases c' with
    | true =>
      obtain rfl := hc rfl
      exact h
    | false =>
      cases c with
      | true => exact .shut h
      | false => exact h

theorem Serving.grows (h : Serving topic group p es p') : p.broker.Grows p'.broker := by
  induction h with
  | nil p => exact State.Grows.refl _
  | shut _ ih => exact ih
  | cons h _ ih => exact h.grows.trans ih

/-- **Logs grow by what is published**, and by nothing else. -/
theorem Serving.messages (h : Serving topic group p es p') (t : String) :
    p'.broker.messages t = p.broker.messages t ++ es.published t := by
  induction h with
  | nil p => exact (List.append_nil _).symm
  | shut _ ih => exact ih
  | @cons p p' p'' e es h _ ih =>
    rw [ih, h.messages t, List.append_assoc]
    congr 1
    unfold Exchanges.published
    rw [List.filterMap_cons]
    cases e.published? t with
    | none => rfl
    | some m => rfl

/-- A closed handle stays closed. -/
theorem Serving.closed (h : Serving topic group p es p') (hc : p.closed = true) :
    p'.closed = true := by
  induction h with
  | nil => exact hc
  | shut _ ih => exact ih rfl
  | cons h _ ih => exact ih (h.closed hc)

/-- **Only what goes to the broker changes it.** -/
theorem serving_transport (h : Serving topic group p es p') :
    Serving topic group p es.transport p' := by
  induction h with
  | nil p => exact .nil p
  | shut _ ih => exact .shut ih
  | @cons p p' p'' e es h _ ih =>
    unfold Exchanges.transport at ih ⊢
    cases he : e.isTransport with
    | true =>
      rw [List.filter_cons_of_pos he]
      exact .cons h ih
    | false =>
      rw [List.filter_cons_of_neg (by rw [he]; exact Bool.false_ne_true)]
      exact h.eq_of_not_transport he ▸ ih

/-- What goes elsewhere is answered at any time. -/
theorem Serving.of_transport (h : Serving topic group p es.transport p') :
    Serving topic group p es p' := by
  induction es generalizing p with
  | nil => exact h
  | cons e es ih =>
    unfold Exchanges.transport at h ih
    cases he : e.isTransport with
    | true =>
      rw [List.filter_cons_of_pos he] at h
      obtain ⟨c, p₁, hc, h₁, hs⟩ := serving_cons_iff.mp h
      exact serving_cons_iff.mpr ⟨c, p₁, hc, h₁, ih hs⟩
    | false =>
      rw [List.filter_cons_of_neg (by rw [he]; exact Bool.false_ne_true)] at h
      exact .cons (.elsewhere p he) (ih h)

/-! ## Publishing and settling -/

/-- A message is published unless the handle is closed. -/
theorem serving_publish_cons {t : String} {m : Message} {x : Except TransportError Unit}
    (h : Serving topic group p (⟨.publish t m, x⟩ :: es) p'') :
    (x = .ok () ∧ p.closed = false ∧ Serving topic group ⟨p.broker.publish t m, false⟩ es p'') ∨
    (x = .error .closed ∧ Serving topic group ⟨p.broker, true⟩ es p'') := by
  obtain ⟨c, p', hc, h, hs⟩ := serving_cons_iff.mp h
  rcases serves_publish h with ⟨hopen, rfl, rfl⟩ | ⟨hclosed, rfl, rfl⟩
  · obtain rfl : c = false := hopen
    refine Or.inl ⟨rfl, ?_, hs⟩
    cases hp : p.closed with
    | false => rfl
    | true => exact absurd (hc hp) Bool.false_ne_true
  · obtain rfl : c = true := hclosed
    exact Or.inr ⟨rfl, hs⟩

/-- The index of a delivery is settled, whether or not the handle is closed. -/
theorem serving_ack_cons {d : Delivery} {i : Nat} {x : Except TransportError Unit}
    (hd : d.position = State.position topic i) (hi : i ≤ Text.maxNat64)
    (h : Serving topic group p (⟨.ack d, x⟩ :: es) p'') :
    x = .ok () ∧ ∃ c, (p.closed = true → c = true) ∧
      Serving topic group ⟨p.broker.changeGroup topic group (·.settle i), c⟩ es p'' := by
  obtain ⟨c, p', hc, h, hs⟩ := serving_cons_iff.mp h
  have hack := State.ack_position p.broker topic group hi
  rw [← hd] at hack
  rcases serves_ack h with ⟨b, hb, rfl, rfl⟩ | ⟨e, he, -, -⟩
  · obtain rfl : _ = b := Except.ok.inj (hack.symm.trans hb)
    exact ⟨rfl, c, hc, hs⟩
  · exact nomatch hack.symm.trans he

/-- A delivery can always be settled. -/
theorem serving_ack {b : State} {c : Bool} {d : Delivery} {i : Nat}
    (hd : d.position = State.position topic i) (hi : i ≤ Text.maxNat64) :
    Serving topic group ⟨b, c⟩ ([⟨.ack d, .ok ()⟩] : Exchanges ν)
      ⟨b.changeGroup topic group (·.settle i), c⟩ := by
  have hack := State.ack_position b topic group hi
  rw [← hd] at hack
  exact .cons (.acked c hack) (.nil _)

/-- Through an open handle, a copy can be published and the delivery settled. -/
theorem serving_forward {b : State} {t : String} {m : Message} {d : Delivery} {i : Nat}
    (hd : d.position = State.position topic i) (hi : i ≤ Text.maxNat64) :
    Serving topic group ⟨b, false⟩ ([⟨.publish t m, .ok ()⟩, ⟨.ack d, .ok ()⟩] : Exchanges ν)
      ⟨(b.publish t m).changeGroup topic group (·.settle i), false⟩ :=
  .cons (.published b t m) (serving_ack hd hi)

/-- The index of a delivery is given back, whether or not the handle is closed. -/
theorem serving_reject {d : Delivery} {i : Nat} {x : Except TransportError Unit}
    (hd : d.position = State.position topic i) (hi : i ≤ Text.maxNat64)
    (h : Serving topic group p ([⟨.reject d true, x⟩] : Exchanges ν) p') :
    x = .ok () ∧ p'.broker = p.broker.changeGroup topic group (·.requeue i) := by
  obtain ⟨c, p₁, -, h, hs⟩ := serving_cons_iff.mp h
  have hreject := State.reject_position p.broker topic group true hi
  rw [← hd] at hreject
  rcases serves_reject h with ⟨b, hb, rfl, rfl⟩ | ⟨e, he, -, -⟩
  · obtain rfl : _ = b := Except.ok.inj (hreject.symm.trans hb)
    exact ⟨rfl, (serving_nil_iff.mp hs).1⟩
  · exact nomatch hreject.symm.trans he

end TaskQueue.Engine
