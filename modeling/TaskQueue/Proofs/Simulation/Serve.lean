import TaskQueue.Proofs.Simulation.Handle
import TaskQueue.Proofs.Stop.Attended
import TaskQueue.Proofs.Worker.Books

/-!
# Requests of the simulated world

A thread asks for one thing, and is answered or has to wait. An answer changes the trails, the
counters and the broker as its exchange says, and tells the thread to end as `Heeds` says.

Results:

* `receiving`, `pausing`: what waiting comes to for now;
* `serve_answered`: **one exchange** of a thread;
* `serve_waiting`: a thread that has to wait.
-/

namespace TaskQueue.Simulation

open Engine Broker Number Time

variable {w w' : World} {t t' : Thread}

/-! ## The rest of the world -/

namespace World

/-- Entering a handler leaves all but the handlers as it was. -/
theorem still_enterHandler (w : World) (c : Context) (p : Payload) (now : Instant) :
    w.Still (w.enterHandler c p now).2 ∧
      (∀ name, (w.enterHandler c p now).2.port name = w.port name) ∧
      ∀ name, w.Faultless name → (w.enterHandler c p now).2.Faultless name := by
  unfold enterHandler
  simp only
  split
  · exact ⟨⟨rfl, rfl, rfl⟩, fun _ => rfl, fun _ => id⟩
  · exact ⟨⟨rfl, rfl, rfl⟩, fun _ => rfl, fun _ => id⟩

/-- Starting enqueues leaves all but the threads and the table of jobs as it was. -/
theorem still_fire (w : World) (now : Instant) :
    w.Still (w.fire now).2 ∧ (w.fire now).2.broker = w.broker ∧
      (w.fire now).2.handles = w.handles := by
  unfold fire
  simp only
  refine List.foldlRecOn (motive := fun b : List ThreadId × World =>
    w.Still b.2 ∧ b.2.broker = w.broker ∧ b.2.handles = w.handles) _ _
    ⟨⟨rfl, rfl, rfl⟩, rfl, rfl⟩ fun b hb key _ => ?_
  obtain ⟨ids, w₁⟩ := b
  obtain ⟨hs, hbroker, hhandles⟩ := hb
  split
  · exact ⟨hs, hbroker, hhandles⟩
  · exact ⟨⟨hs.store, hs.counters, hs.flags⟩, hbroker, hhandles⟩

end World

/-! ## One request -/

open World

/-- The consumer of a thread after an exchange. -/
def joinedAfter (t : Thread) : Exchange (Answer Double) → Consumer
  | ⟨.subscribe topic group, .ok ()⟩ => ⟨t.handle, topic, group⟩
  | _ => t.joined

/-- **One exchange** of a thread. -/
structure Answered (w : World) (t : Thread) (e : Exchange (Answer Double)) (w' : World)
    (t' : Thread) : Prop where
  store : w'.store = e.keep w.store
  counters : w'.counters = e.raise w.counters
  flags : w'.flags = w.flags
  handle : t'.handle = t.handle
  token : t'.token = t.token
  joined : t'.joined = joinedAfter t e
  heeds : Heeds (w.isCancelled t.token) e
  faultless : t.joined.handle = t.handle → w.Faultless t.handle → w'.Faultless t.handle
  serves : t.joined.handle = t.handle → w.Faultless t.handle →
    Serves t.joined.topic t.joined.group (w.port t.handle) e (w'.port t.handle)

/-- What does not go to the broker. -/
theorem answered_elsewhere {e : Exchange (Answer Double)} (he : e.isTransport = false)
    (store : w'.store = e.keep w.store) (counters : w'.counters = e.raise w.counters)
    (flags : w'.flags = w.flags) (broker : w'.broker = w.broker) (handles : w'.handles = w.handles)
    (heeds : Heeds (w.isCancelled t.token) e) : Answered w t e w' t where
  store := store
  counters := counters
  flags := flags
  handle := rfl
  token := rfl
  joined := by
    obtain ⟨r, x⟩ := e
    cases r with
    | subscribe => cases he
    | _ => rfl
  heeds := heeds
  faultless _ hf := by
    unfold Faultless World.handle at hf ⊢
    rw [handles]
    exact hf
  serves _ _ := by
    have hp : w'.port t.handle = w.port t.handle := by
      unfold port World.handle
      rw [broker, handles]
    rw [hp]
    exact .elsewhere _ he

/-- What waiting for a delivery comes to for now. -/
inductive Receiving (w : World) (t : Thread) (wait : Span) : Served (.receive wait) → Prop where
  | cancelled (told : w.isCancelled t.token = true) :
      Receiving w t wait (.answered .cancelled w t)
  | failed {w' : World} {e : TransportError} (called : Called t.joined.handle w w')
      (faulty : ¬ w.Faultless t.joined.handle) : Receiving w t wait (.answered (.failed e) w' t)
  | overflowed {w' : World} {e : Overflow} : Receiving w t wait (.overflowed e w')
  | received {w' : World} {r : Received} (told : w.isCancelled t.token = false)
      (passed : Passed t.joined.handle (fun p p' => Serves t.joined.topic t.joined.group p
        (⟨.receive wait, r⟩ : Exchange (Answer Double)) p') w w')
      (hr : r ≠ .cancelled) : Receiving w t wait (.answered r w' t)
  | waits {w' : World} {deadline : Nanos}
      (passed : Passed t.joined.handle (fun p p' => p'.closed = p.closed) w w') :
      Receiving w t wait (.waiting w' { t with wait := some (.delivery deadline) } false)

/-- Only what is open hands something out, and only to a thread that goes on. -/
theorem receiving (w : World) (t : Thread) (wait : Span) :
    Receiving w t wait (serveReceive w t wait) := by
  have still : Called t.joined.handle w w := ⟨⟨rfl, rfl, rfl⟩, rfl, rfl, id⟩
  unfold serveReceive
  split
  · next told => exact .cancelled told
  · next told =>
    have told := eq_false_of_ne_true told
    extract_lets attempt
    have attempted (w₁ : World) (deadline : Nanos) (called : Called t.joined.handle w w₁) :
        Receiving w t wait (attempt w₁ deadline) := by
      unfold attempt
      split
      · next r w' h =>
        obtain ⟨hp, hr⟩ := passed_tryReceive wait h
        exact .received told (called.passed (hp.imp fun _ _ h => h.1 r rfl))
          fun h => hr (h ▸ rfl)
      · next h =>
        obtain ⟨hp, -⟩ := passed_tryReceive wait h
        exact .waits (called.passed (hp.imp fun _ _ h => h.2))
    split
    · exact attempted _ _ still
    · refine call_elim (P := Receiving w t wait) (fun e w₁ hc hf => .failed hc hf) fun w₁ hc => ?_
      split
      · exact attempted _ _ hc
      · exact .overflowed

/-- A pause ends at once or goes on until a deadline. -/
theorem pausing (w : World) (t : Thread) (wait : Span) :
    servePause w t wait = .answered () w t ∨
      ∃ d, servePause w t wait = .waiting w { t with wait := some (.time d) } false := by
  have endsAt (d : Nanos) (s : Served (.pause wait))
      (hs : s = if d ≤ w.nanos || w.isCancelled t.token then .answered () w t
        else .waiting w { t with wait := some (.time d) } false) :
      s = .answered () w t ∨ ∃ d', s = .waiting w { t with wait := some (.time d') } false := by
    split at hs
    · exact .inl hs
    · exact .inr ⟨d, hs⟩
  exact endsAt _ _ rfl

/-- **An answer** is as its exchange says. -/
theorem serve_answered {r : Request} {a : Answer Double r} (h : serve r w t = .answered a w' t') :
    Answered w t ⟨r, a⟩ w' t' := by
  cases r with
  | now =>
    simp only [serve] at h
    split at h
    · cases h
      exact answered_elsewhere rfl rfl rfl rfl rfl rfl trivial
    · cases h
  | newId =>
    cases h
    exact answered_elsewhere rfl rfl rfl rfl rfl rfl trivial
  | isCancelled =>
    cases h
    exact answered_elsewhere rfl rfl rfl rfl rfl rfl rfl
  | publish topic m =>
    simp only [serve] at h
    cases h
    have hp := passed_publish (Prod.eta (w.publish t.handle topic m)).symm
    exact ⟨hp.store, hp.counters, hp.flags, rfl, rfl, rfl, trivial, fun _ => hp.faultless,
      fun _ hf => hp.through hf _ _⟩
  | subscribe topic group =>
    simp only [serve] at h
    split at h
    · next c w₁ heq =>
      obtain ⟨hp, hc⟩ := passed_subscribe heq
      cases h
      exact ⟨hp.store, hp.counters, hp.flags, rfl, rfl, hc c rfl, trivial, fun _ => hp.faultless,
        fun _ hf => hp.through hf _ _⟩
    · next e w₁ heq =>
      obtain ⟨hp, -⟩ := passed_subscribe heq
      cases h
      exact ⟨hp.store, hp.counters, hp.flags, rfl, rfl, rfl, trivial, fun _ => hp.faultless,
        fun _ hf => hp.through hf _ _⟩
  | receive wait =>
    have hr := receiving w t wait
    rw [show serveReceive w t wait = .answered a w' t' from h] at hr
    cases hr with
    | cancelled told =>
      refine ⟨rfl, rfl, rfl, rfl, rfl, rfl, told, fun _ => id, fun _ _ => .cancelled _ _⟩
    | failed called faulty =>
      exact ⟨called.store, called.counters, called.flags, rfl, rfl, rfl, trivial,
        fun hj hf => absurd (hj ▸ hf) faulty, fun hj hf => absurd (hj ▸ hf) faulty⟩
    | received told hp hr =>
      refine ⟨hp.store, hp.counters, hp.flags, rfl, rfl, rfl, ?_, fun hj => hj ▸ hp.faultless,
        fun hj => hj ▸ hp.through⟩
      cases a with
      | cancelled => exact absurd rfl hr
      | failed => trivial
      | nothing => exact told
      | delivery => exact told
  | ack d =>
    simp only [serve] at h
    cases h
    have hp := passed_ack (Prod.eta (w.ack t.joined d)).symm
    exact ⟨hp.store, hp.counters, hp.flags, rfl, rfl, rfl, trivial,
      fun hj => hj ▸ hp.faultless, fun hj => hj ▸ hp.through⟩
  | reject d requeue =>
    simp only [serve] at h
    cases h
    have hp := passed_reject (Prod.eta (w.reject t.joined d requeue)).symm
    exact ⟨hp.store, hp.counters, hp.flags, rfl, rfl, rfl, trivial,
      fun hj => hj ▸ hp.faultless, fun hj => hj ▸ hp.through⟩
  | policy =>
    cases h
    exact answered_elsewhere rfl rfl rfl rfl rfl rfl trivial
  | handles task =>
    cases h
    exact answered_elsewhere rfl rfl rfl rfl rfl rfl trivial
  | handle c p =>
    simp only [serve, serveHandle] at h
    split at h
    · split at h
      · cases h
        exact answered_elsewhere rfl rfl rfl rfl rfl rfl trivial
      · cases h
    · split at h
      · cases h
      · cases h
  | pause wait =>
    have h : servePause w t wait = .answered a w' t' := h
    rcases pausing w t wait with hp | ⟨d, hp⟩
    · cases hp.symm.trans h
      exact answered_elsewhere rfl rfl rfl rfl rfl rfl trivial
    · cases hp.symm.trans h
  | remember position trail =>
    cases h
    exact answered_elsewhere rfl rfl rfl rfl rfl rfl trivial
  | forget position =>
    cases h
    exact answered_elsewhere rfl rfl rfl rfl rfl rfl trivial
  | count c =>
    cases h
    exact answered_elsewhere rfl rfl rfl rfl rfl rfl trivial
  | tick =>
    simp only [serve, serveTick] at h
    split at h
    · cases h
      exact answered_elsewhere rfl rfl rfl rfl rfl rfl trivial
    · split at h
      · cases h
        have hb : Answered w t ⟨.tick, true⟩ w t :=
          answered_elsewhere rfl rfl rfl rfl rfl rfl trivial
        exact { hb with handle := rfl, token := rfl, joined := rfl }
      · cases h
  | fire now =>
    cases h
    obtain ⟨hs, hb, hh⟩ := still_fire w now
    exact answered_elsewhere rfl hs.store hs.counters hs.flags hb hh trivial

/-- **A thread that has to wait.** Only looking for a delivery changes the broker. -/
structure Waited (w : World) (t : Thread) (w' : World) (t' : Thread) : Prop
    extends Still w w' where
  handle : t'.handle = t.handle
  token : t'.token = t.token
  joined : t'.joined = t.joined
  faultless : t.joined.handle = t.handle → w.Faultless t.handle → w'.Faultless t.handle
  closed : t.joined.handle = t.handle → w.Faultless t.handle →
    (w'.port t.handle).closed = (w.port t.handle).closed

theorem serve_waiting {r : Request} {again : Bool} (h : serve r w t = .waiting w' t' again) :
    Waited w t w' t' := by
  cases r with
  | receive wait =>
    have hr := receiving w t wait
    rw [show serveReceive w t wait = .waiting w' t' again from h] at hr
    cases hr with
    | waits hp =>
      exact ⟨hp.toStill, rfl, rfl, rfl, fun hj => hj ▸ hp.faultless, fun hj => hj ▸ hp.through⟩
  | handle c p =>
    simp only [serve, serveHandle] at h
    split at h
    · split at h
      · cases h
      · cases h
        exact ⟨⟨rfl, rfl, rfl⟩, rfl, rfl, rfl, fun _ => id, fun _ _ => rfl⟩
    · split at h
      · cases h
      · next now _ =>
        obtain ⟨hs, hport, hf⟩ := still_enterHandler w c p now
        cases h
        exact ⟨hs, rfl, rfl, rfl, fun _ => hf _, fun _ _ => congrArg Port.closed (hport _)⟩
  | pause wait =>
    have h : servePause w t wait = .waiting w' t' again := h
    rcases pausing w t wait with hp | ⟨d, hp⟩
    · cases hp.symm.trans h
    · cases hp.symm.trans h
      exact ⟨⟨rfl, rfl, rfl⟩, rfl, rfl, rfl, fun _ => id, fun _ _ => rfl⟩
  | tick =>
    simp only [serve, serveTick] at h
    split at h
    · cases h
    · split at h
      · cases h
      · cases h
        exact ⟨⟨rfl, rfl, rfl⟩, rfl, rfl, rfl, fun _ => id, fun _ _ => rfl⟩
  | now =>
    simp only [serve] at h
    split at h
    · cases h
    · cases h
  | subscribe =>
    simp only [serve] at h
    split at h
    · cases h
    · cases h
  | _ => cases h

end TaskQueue.Simulation
