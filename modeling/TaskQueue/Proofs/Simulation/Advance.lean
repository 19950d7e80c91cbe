import TaskQueue.Proofs.Simulation.Serve
import TaskQueue.Simulation.Control

/-!
# Threads of the simulated world

What is proved of a script holds whoever answers it, or for a component at a broker that may be told
to end. The simulated world is a case of both: a thread that gets on exchanges what its script may
exchange, as an `Attended` component as long as its handle is not made to fail, and leaves the
trails and counters of its exchanges behind.

Results:

* `advance_ended`, `advance_waits`: **a thread that gets on**, up to its end or up to where it has
  to wait;
* `attended_setFlag`, `attended_stop`: cancelling and stopping, as a thread sees it.
-/

namespace TaskQueue.Simulation

open Engine Broker Number World

variable {w w' : World} {t t' : Thread} {topic group : String}

/-! ## A script -/

/-- The broker as a thread has it, and whether the thread was told to end. -/
def World.station (w : World) (t : Thread) : Station := ⟨w.port t.handle, w.isCancelled t.token⟩

/-- **Some exchanges** of a thread. As long as its handle is not made to fail and its consumer is of
one group of one topic, they are those of a component at a broker. -/
structure Worked (w : World) (t : Thread) (es : Exchanges Double) (w' : World) (t' : Thread) :
    Prop where
  store : w'.store = es.trails w.store
  counters : w'.counters = es.counters w.counters
  flags : w'.flags = w.flags
  handle : t'.handle = t.handle
  token : t'.token = t.token
  attended : ∀ topic group, t.joined = ⟨t.handle, topic, group⟩ →
    (∀ q g, ⟨.subscribe q g, .ok ()⟩ ∈ es → q = topic ∧ g = group) → w.Faultless t.handle →
    Attended topic group (w.station t) es (w'.station t')

theorem joinedAfter_eq {e : Exchange (Answer Double)} (hj : t.joined = ⟨t.handle, topic, group⟩)
    (he : ∀ q g, e = ⟨.subscribe q g, .ok ()⟩ → q = topic ∧ g = group) :
    joinedAfter t e = ⟨t.handle, topic, group⟩ := by
  unfold joinedAfter
  split
  · next q g =>
    obtain ⟨rfl, rfl⟩ := he q g rfl
    rfl
  · exact hj

theorem Worked.nil (w : World) (t : Thread) : Worked w t [] w t :=
  ⟨rfl, rfl, rfl, rfl, rfl, fun _ _ _ _ _ => .nil _⟩

theorem Worked.cons {e : Exchange (Answer Double)} {es : Exchanges Double} {w₁ : World}
    {t₁ : Thread} (h : Answered w t e w₁ t₁) (hs : Worked w₁ { t₁ with wait := none } es w' t') :
    Worked w t (e :: es) w' t' where
  store := by rw [hs.store, h.store, Exchanges.trails_cons]
  counters := by rw [hs.counters, h.counters, Exchanges.counters_cons]
  flags := hs.flags.trans h.flags
  handle := hs.handle.trans h.handle
  token := hs.token.trans h.token
  attended topic group hj hsub hf := by
    have hh : t.joined.handle = t.handle := by rw [hj]
    have hserves := h.serves hh hf
    rw [hj] at hserves
    have hrest := hs.attended topic group
      (by
        change t₁.joined = ⟨t₁.handle, topic, group⟩
        rw [h.joined, h.handle]
        exact joinedAfter_eq hj fun q g he => hsub q g (he ▸ List.mem_cons_self))
      (fun q g hmem => hsub q g (.tail _ hmem))
      (by
        change w₁.Faultless t₁.handle
        rw [h.handle]
        exact h.faultless hh hf)
    have hstation : w₁.station { t₁ with wait := none } =
        ⟨w₁.port t.handle, w.isCancelled t.token⟩ := by
      unfold station isCancelled
      simp only [h.handle, h.token, h.flags]
    rw [hstation] at hrest
    exact .cons h.heeds hserves hrest

theorem Worked.waited (h : Waited w t w' t') : Worked w t [] w' t' where
  store := h.store
  counters := h.counters
  flags := h.flags
  handle := h.handle
  token := h.token
  attended topic group hj _ hf := by
    have hh : t.joined.handle = t.handle := by rw [hj]
    have hclosed := h.closed hh hf
    have hstation : w'.station t' =
        ⟨⟨w'.broker, (w.handle t.handle).closed⟩, w.isCancelled t.token⟩ := by
      unfold station isCancelled
      rw [h.handle, h.token, h.flags]
      exact congrArg (fun c => Station.mk ⟨w'.broker, c⟩ _) hclosed
    rw [hstation]
    exact .others _ (.nil _)

/-- **A script that ends** has got all its answers, unless a time could not be told. -/
theorem advance_ended {x : Program Double Ending} {moved : Bool} {e : Ending}
    (h : advance x w t moved = .ended w' t' e) :
    (∃ es, x.Ends es e ∧ Worked w t es w' t') ∨ ∃ o, e = .brokeDown o := by
  induction x generalizing w t moved with
  | done e' =>
    cases h
    exact .inl ⟨[], .done _, .nil _ _⟩
  | ask r next ih =>
    unfold advance at h
    split at h
    · next a w₁ t₁ heq =>
      rcases ih a h with ⟨es, hends, hw⟩ | hb
      · exact .inl ⟨_, .ask r a hends, .cons (serve_answered heq) hw⟩
      · exact .inr hb
    · cases h
    · cases h
      exact .inr ⟨_, rfl⟩

/-- **A script that has to wait** goes on from there. -/
theorem advance_waits {x : Program Double Ending} {moved moved' : Bool}
    (h : advance x w t moved = .waits w' t' moved') :
    ∃ es, Worked w t es w' t' ∧ ∀ es' e, t'.script.Ends es' e → x.Ends (es ++ es') e := by
  induction x generalizing w t moved with
  | done e' => cases h
  | ask r next ih =>
    unfold advance at h
    split at h
    · next a w₁ t₁ heq =>
      obtain ⟨es, hw, hends⟩ := ih a h
      exact ⟨_, .cons (serve_answered heq) hw, fun es' e he => .ask r a (hends es' e he)⟩
    · next w₁ t₁ again heq =>
      have hw := serve_waiting heq
      cases h
      exact ⟨[], Worked.waited ⟨hw.toStill, hw.handle, hw.token, hw.joined, hw.faultless,
        hw.closed⟩, fun es' e he => he⟩
    · cases h

/-! ## From outside -/

/-- Who was told to end stays told, whatever flag is set. -/
theorem isCancelled_setFlag (w : World) (token : CancelToken) (f : Flag) :
    (w.setFlag f).isCancelled token = true ↔ w.isCancelled token = true ∨ f ∈ token.flags := by
  simp only [isCancelled, CancelToken.isCancelled, setFlag, List.any_eq_true,
    List.contains_iff_mem, List.mem_cons]
  constructor
  · rintro ⟨g, hg, rfl | hmem⟩
    · exact .inr hg
    · exact .inl ⟨g, hg, hmem⟩
  · rintro (⟨g, hg, hmem⟩ | hf)
    · exact ⟨g, hg, .inr hmem⟩
    · exact ⟨f, hf, .inl rfl⟩

/-- **Cancelling a thread** tells it to end. -/
theorem attended_setFlag (topic group : String) (w : World) (t : Thread) (f : Flag) :
    Attended topic group (w.station t) ([] : Exchanges Double) ((w.setFlag f).station t) := by
  have hstation : (w.setFlag f).station t =
      ⟨w.port t.handle, (w.setFlag f).isCancelled t.token⟩ := rfl
  rw [hstation]
  cases h : (w.setFlag f).isCancelled t.token with
  | true => exact .told (.nil _)
  | false =>
    have hnot : w.isCancelled t.token = false := by
      by_contra hc
      have := (isCancelled_setFlag w t.token f).mpr (.inl (Bool.of_not_eq_false hc))
      rw [h] at this
      cases this
    unfold station
    rw [hnot]
    exact .nil _

/-- **Stopping a component** tells its threads to end and then closes their handle. -/
theorem attended_stop (topic group : String) {c : Component} {x : Except TransportError Unit}
    (handle : t.handle = c.name) (token : c.stopFlag ∈ t.token.flags)
    (h : w.stopComponent c = (x, w')) :
    Attended topic group (w.station t) ([] : Exchanges Double) (w'.station t) := by
  unfold stopComponent at h
  simp only at h
  split at h
  · cases h
    exact .nil _
  · have htold : ((w.setLifecycle c (w.lifecycle c).stop).setFlag c.stopFlag).isCancelled
        t.token = true := (isCancelled_setFlag _ _ _).mpr (.inr token)
    unfold closeHandle at h
    split at h
    · next heq =>
      obtain ⟨hc, -⟩ := called heq
      cases h
      have hstation : w'.station t = ⟨w.port t.handle, true⟩ := by
        unfold station isCancelled
        rw [hc.flags, handle, hc.port_eq]
        exact congrArg (Station.mk _) htold
      rw [hstation]
      exact .told (.nil _)
    · next w₁ heq =>
      obtain ⟨hc, -⟩ := called heq
      cases h
      have hstation : World.station
          { w₁ with handles := w₁.handles.insert c.name { w₁.handle c.name with closed := true } }
          t = ⟨⟨w.broker, true⟩, true⟩ := by
        unfold station isCancelled port
        rw [handle, handle_insert]
        simp only [hc.broker, hc.flags]
        exact congrArg (Station.mk _) htold
      rw [hstation]
      exact .told (.shut (.nil _))

end TaskQueue.Simulation
