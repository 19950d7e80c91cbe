import TaskQueue.Proofs.Engine.Port
import TaskQueue.Simulation.Serve

/-!
# Handles of the simulated world

A handle of the simulated world can be made to fail. As long as it is not, the broker is had through
it as `Serves` says.

Results:

* `called`, `passed_refused`, `passed_open`: a call, when the handle is closed and when it is open;
* `passed_publish`, `passed_subscribe`, `passed_ack`, `passed_reject`, `passed_tryReceive`: **what
  goes through a handle**.
-/

namespace TaskQueue.Simulation

open Engine Broker Number Time

variable {w w' : World} {name topic group : String} {x : Except TransportError Unit}

/-- The broker as it is had through a handle. -/
def World.port (w : World) (name : String) : Port := ⟨w.broker, (w.handle name).closed⟩

/-- The handle is not made to fail. -/
def World.Faultless (w : World) (name : String) : Prop := (w.handle name).faults = []

/-- No trail was kept or dropped, nothing was counted, and nobody was told to end. -/
structure World.Still (w w' : World) : Prop where
  store : w'.store = w.store
  counters : w'.counters = w.counters
  flags : w'.flags = w.flags

/-- A call has at most used up a fault. -/
structure World.Called (name : String) (w w' : World) : Prop extends Still w w' where
  broker : w'.broker = w.broker
  closed : (w'.handle name).closed = (w.handle name).closed
  faultless : w.Faultless name → w'.Faultless name

/-- What went through a handle has changed the broker only, and that as `P` says unless the handle
is made to fail. -/
structure World.Passed (name : String) (P : Port → Port → Prop) (w w' : World) : Prop
    extends Still w w' where
  faultless : w.Faultless name → w'.Faultless name
  through : w.Faultless name → P (w.port name) (w'.port name)

namespace World

theorem Called.port_eq (h : Called name w w') : w'.port name = w.port name := by
  unfold port
  rw [h.broker, h.closed]

theorem Called.passed {P : Port → Port → Prop} {w₁ : World} (h : Called name w w₁)
    (hp : Passed name P w₁ w') : Passed name P w w' where
  store := hp.store.trans h.store
  counters := hp.counters.trans h.counters
  flags := hp.flags.trans h.flags
  faultless hf := hp.faultless (h.faultless hf)
  through hf := h.port_eq ▸ hp.through (h.faultless hf)

theorem Passed.imp {P Q : Port → Port → Prop} (h : Passed name P w w')
    (hi : ∀ p p', P p p' → Q p p') : Passed name Q w w' :=
  ⟨h.toStill, h.faultless, fun hf => hi _ _ (h.through hf)⟩

/-- Changing the broker closes no handle. -/
theorem port_broker (w : World) (b : State) (name : String) :
    port { w with broker := b } name = ⟨b, (w.handle name).closed⟩ := rfl

theorem handle_insert (w : World) (name : String) (h : Handle) :
    handle { w with handles := w.handles.insert name h } name = h := by
  unfold handle
  rw [Dict.get?_insert, if_pos rfl]
  rfl

theorem called {op : Operation} (h : w.call name op = (x, w')) :
    Called name w w' ∧ (w.Faultless name → x = .ok ()) := by
  unfold call at h
  simp only at h
  cases hu : useCall op (w.handle name).faults with
  | mk e? rest =>
  have hh := handle_insert w name { w.handle name with faults := rest }
  have hnone (hf : w.Faultless name) : e? = none ∧ rest = [] := by
    rw [show (w.handle name).faults = [] from hf] at hu
    cases hu
    exact ⟨rfl, rfl⟩
  have hc : Called name w
      { w with handles := w.handles.insert name { w.handle name with faults := rest } } :=
    ⟨⟨rfl, rfl, rfl⟩, rfl, by rw [hh], fun hf => (congrArg Handle.faults hh).trans (hnone hf).2⟩
  rw [hu] at h
  cases e? with
  | some e =>
    cases h
    exact ⟨hc, fun hf => absurd (hnone hf).1 (Option.some_ne_none e)⟩
  | none =>
    cases h
    exact ⟨hc, fun _ => rfl⟩

/-- A call fails or goes on to `k`. -/
theorem call_elim {α : Type} {P : α → Prop} {op : Operation} {f : TransportError → World → α}
    {k : World → α} (failed : ∀ e w', Called name w w' → ¬ w.Faultless name → P (f e w'))
    (went : ∀ w', Called name w w' → P (k w')) :
    P (match w.call name op with
      | (.error e, w') => f e w'
      | (.ok (), w') => k w') := by
  split
  · next h =>
    obtain ⟨hc, hx⟩ := called h
    exact failed _ _ hc fun hf => by cases hx hf
  · next h => exact went _ (called h).1

/-- A closed handle refuses. -/
theorem passed_refused {op : Operation} {e : TransportError}
    (h : w.callOpen name op = (.error e, w')) :
    Passed name (fun p p' => e = .closed ∧ p = ⟨p.broker, true⟩ ∧ p' = p) w w' := by
  unfold callOpen at h
  split at h
  · next heq =>
    obtain ⟨hc, hx⟩ := called heq
    cases h
    exact ⟨hc.toStill, hc.faultless, fun hf => by cases hx hf⟩
  · next heq =>
    obtain ⟨hc, -⟩ := called heq
    obtain ⟨he, rfl⟩ := Prod.mk.inj h
    refine ⟨hc.toStill, hc.faultless, fun hf => ?_⟩
    split at he
    · next hclosed =>
      cases he
      refine ⟨rfl, ?_, hc.port_eq⟩
      unfold port
      rw [← hc.closed, hclosed]
    · cases he

/-- An open handle goes on to the broker. -/
theorem passed_open {op : Operation} (h : w.callOpen name op = (.ok (), w')) (f : State → State) :
    Passed name (fun p p' => p = ⟨p.broker, false⟩ ∧ p' = ⟨f p.broker, false⟩) w
      { w' with broker := f w'.broker } := by
  unfold callOpen at h
  split at h
  · cases h
  · next heq =>
    obtain ⟨hc, -⟩ := called heq
    obtain ⟨he, rfl⟩ := Prod.mk.inj h
    refine ⟨⟨hc.store, hc.counters, hc.flags⟩, hc.faultless, fun hf => ?_⟩
    split at he
    · cases he
    · next hopen =>
      have hopen := eq_false_of_ne_true hopen
      refine ⟨?_, ?_⟩
      · unfold port
        rw [← hc.closed, hopen]
      · rw [port_broker, hopen, hc.broker]
        rfl

theorem passed_publish {m : Message} (h : w.publish name topic m = (x, w')) :
    Passed name (fun p p' => ∀ t g,
      Serves t g p (⟨.publish topic m, x⟩ : Exchange (Answer Double)) p') w w' := by
  unfold publish at h
  split at h
  · next heq =>
    cases h
    refine (passed_refused heq).imp fun p p' hp t g => ?_
    obtain ⟨rfl, hp, rfl⟩ := hp
    rw [hp]
    exact .publishRefused _ _ _
  · next heq =>
    cases h
    refine (passed_open heq (·.publish topic m)).imp fun p p' hp t g => ?_
    obtain ⟨hp, rfl⟩ := hp
    rw [hp]
    exact .published _ _ _

theorem passed_subscribe {c : Except TransportError Consumer}
    (h : w.subscribe name topic group = (c, w')) :
    Passed name (fun p p' => ∀ t g,
      Serves t g p (⟨.subscribe topic group, c.map fun _ => ()⟩ : Exchange (Answer Double)) p')
      w w' ∧ ∀ c', c = .ok c' → c' = ⟨name, topic, group⟩ := by
  unfold subscribe at h
  split at h
  · next heq =>
    cases h
    refine ⟨(passed_refused heq).imp fun p p' hp t g => ?_, fun _ hc => by cases hc⟩
    obtain ⟨rfl, hp, rfl⟩ := hp
    rw [hp]
    exact .subscribeRefused _ _ _
  · next heq =>
    cases h
    refine ⟨(passed_open heq (·.subscribe topic group)).imp fun p p' hp t g => ?_,
      fun _ hc => (Except.ok.inj hc).symm⟩
    obtain ⟨hp, rfl⟩ := hp
    rw [hp]
    exact .subscribed _ _ _

/-- Settling does not mind a closed handle. -/
theorem passed_settle {c : Consumer} {op : Operation}
    {f : State → Except TransportError State} (h : w.settle c op f = (x, w')) :
    Passed c.handle (fun p p' =>
      (∃ b, f p.broker = .ok b ∧ x = .ok () ∧ p' = ⟨b, p.closed⟩) ∨
      (∃ e, f p.broker = .error e ∧ x = .error e ∧ p' = p)) w w' := by
  unfold settle at h
  split at h
  · next heq =>
    obtain ⟨hc, hx⟩ := called heq
    cases h
    exact ⟨hc.toStill, hc.faultless, fun hf => by cases hx hf⟩
  · next heq =>
    obtain ⟨hc, -⟩ := called heq
    split at h
    · next b hb =>
      cases h
      refine ⟨⟨hc.store, hc.counters, hc.flags⟩, hc.faultless, fun _ => .inl ⟨b, ?_, rfl, ?_⟩⟩
      · rw [← hb, hc.broker]
        rfl
      · rw [port_broker, hc.closed]
        rfl
    · next e he =>
      cases h
      refine ⟨hc.toStill, hc.faultless, fun _ => .inr ⟨e, ?_, rfl, hc.port_eq⟩⟩
      rw [← he, hc.broker]
      rfl

theorem passed_ack {c : Consumer} {d : Delivery} (h : w.ack c d = (x, w')) :
    Passed c.handle (fun p p' =>
      Serves c.topic c.group p (⟨.ack d, x⟩ : Exchange (Answer Double)) p') w w' := by
  refine (passed_settle h).imp fun p p' hp => ?_
  rcases hp with ⟨b, hb, rfl, rfl⟩ | ⟨e, he, rfl, rfl⟩
  · exact .acked _ hb
  · exact .ackFailed he

theorem passed_reject {c : Consumer} {d : Delivery} {requeue : Bool}
    (h : w.reject c d requeue = (x, w')) :
    Passed c.handle (fun p p' =>
      Serves c.topic c.group p (⟨.reject d requeue, x⟩ : Exchange (Answer Double)) p') w w' := by
  refine (passed_settle h).imp fun p p' hp => ?_
  rcases hp with ⟨b, hb, rfl, rfl⟩ | ⟨e, he, rfl, rfl⟩
  · exact .rejected _ hb
  · exact .rejectFailed he

/-- Looking for a delivery does not tell anybody to end. -/
theorem passed_tryReceive (wait : Span) {c : Consumer} {deadline : Nanos} {r? : Option Received}
    (h : w.tryReceive c deadline = (r?, w')) :
    Passed c.handle (fun p p' =>
      (∀ r, r? = some r →
        Serves c.topic c.group p (⟨.receive wait, r⟩ : Exchange (Answer Double)) p') ∧
      (p'.closed = p.closed)) w w' ∧ r? ≠ some .cancelled := by
  unfold tryReceive at h
  split at h
  · next hclosed =>
    cases h
    refine ⟨⟨⟨rfl, rfl, rfl⟩, id, fun _ => ⟨fun r hr => ?_, rfl⟩⟩, fun hr => by cases hr⟩
    cases hr
    unfold port
    rw [hclosed]
    exact .receiveRefused _ _
  · next hopen =>
    have hopen := eq_false_of_ne_true hopen
    split at h
    · next d b hb =>
      cases h
      refine ⟨⟨⟨rfl, rfl, rfl⟩, id, fun _ => ⟨fun r hr => ?_, rfl⟩⟩, fun hr => by cases hr⟩
      cases hr
      rw [port_broker w b]
      unfold port
      rw [hopen]
      exact .delivered _ hb
    · next b hb =>
      obtain ⟨hr, rfl⟩ := Prod.mk.inj h
      refine ⟨⟨⟨rfl, rfl, rfl⟩, id, fun _ => ⟨fun r hr' => ?_, rfl⟩⟩, fun hr' => ?_⟩
      · rw [hr'] at hr
        split at hr
        · cases hr
          rw [port_broker w b]
          unfold port
          rw [hopen]
          exact .nothing _ hb
        · cases hr
      · rw [hr'] at hr
        split at hr
        · cases hr
        · cases hr

end World

end TaskQueue.Simulation
