import TaskQueue.Proofs.Promotion.DelayQueue
import TaskQueue.Proofs.Engine.Port
import TaskQueue.Proofs.Promotion.Promote

/-!
# Runs of a promoter

A promoter works at a broker that others use at the same time; nobody else is in its group, and its
handle is open. In any order, it receives a delivery and holds it, and it promotes what is due. Its
clock never goes back.

A `Desk` keeps what has come to the promoter, each with its due time, and what it has published.

Results:

* `Promoted.served`, `Promoted.ack_after`: a batch at an open handle is promoted as a whole, and
  every delivery is acknowledged after its copy was published;
* `Step.kept`, `Reachable.kept`: what a step, and so every run, keeps true of the desk.
-/

namespace TaskQueue.Engine

variable {ν : Type}

/-- The clock after some exchanges. -/
def Exchanges.clockAfter (t : Time.Instant) (es : Exchanges ν) : Time.Instant :=
  es.readings.getLast?.getD t

theorem Exchanges.published_cons (topic : String) (e : Exchange (Answer ν)) (es : Exchanges ν) :
    Exchanges.published topic (e :: es) =
      (e.published? topic).toList ++ Exchanges.published topic es := by
  unfold Exchanges.published
  rw [List.filterMap_cons]
  cases e.published? topic with
  | none => rfl
  | some m => rfl

/-- A message that is published to a topic comes first. -/
theorem Exchanges.published_publish (topic : String) (m : Message) (es : Exchanges ν) :
    Exchanges.published topic (⟨.publish topic m, .ok ()⟩ :: es) =
      m :: Exchanges.published topic es := by
  rw [Exchanges.published_cons, show Exchange.published? topic
    (⟨.publish topic m, .ok ()⟩ : Exchange (Answer ν)) = some m from if_pos rfl]
  rfl

end TaskQueue.Engine

namespace TaskQueue.Promotion

open Broker Engine Time DelayQueue

variable {ν : Type}

/-! ## A batch at an open handle -/

section

variable {topic group active : String} {now : Instant} {ds : List Delivery} {es : Exchanges ν}
  {r : Except TransportError Unit} {p p' : Port}

/-- A batch is promoted without a look at the clock. -/
theorem Promoted.readings (h : Promoted active now ds es r) : es.readings = [] := by
  induction h with
  | nil => rfl
  | refused => rfl
  | stuck => rfl
  | cons d _ ih => exact ih

/-- A batch can be promoted through an open handle, at any broker. -/
theorem Promoted.exists_serving (topic group active : String) (now : Instant) (ds : List Delivery)
    (b : State) :
    ∃ (es : Exchanges ν) (r : Except TransportError Unit) (b' : State),
      Promoted active now ds es r ∧ Serving topic group ⟨b, false⟩ es ⟨b', false⟩ := by
  induction ds generalizing b with
  | nil => exact ⟨[], .ok (), b, .nil, .nil _⟩
  | cons d ds ih =>
    let b₁ := b.publish active (promotedCopy d.message now)
    cases hack : b₁.ack topic group d.position with
    | error e =>
      exact ⟨_, .error e, b₁, .stuck d ds e,
        .cons (.published _ _ _) (.cons (.ackFailed hack) (.nil _))⟩
    | ok b₂ =>
      obtain ⟨es, r, b', hp, hs⟩ := ih b₂
      exact ⟨_, r, b', .cons d hp, .cons (.published _ _ _) (.cons (.acked false hack) hs)⟩

/-- **A delivery is acknowledged after its copy was published.** -/
theorem Promoted.ack_after (h : Promoted active now ds es r) {es₁ es₂ : Exchanges ν} {d : Delivery}
    {x : Except TransportError Unit} (hes : es = es₁ ++ ⟨.ack d, x⟩ :: es₂) :
    promotedCopy d.message now ∈ es₁.published active := by
  induction h generalizing es₁ with
  | nil => simp at hes
  | refused d' ds e =>
    rcases List.cons_eq_append_iff.mp hes with ⟨-, h⟩ | ⟨es₁', -, h⟩
    · cases h
    · simp at h
  | stuck d' ds e =>
    rcases List.cons_eq_append_iff.mp hes with ⟨-, h⟩ | ⟨es₁', rfl, h⟩
    · cases h
    · rw [Exchanges.published_publish]
      rcases List.cons_eq_append_iff.mp h with ⟨-, h⟩ | ⟨es₁'', -, h⟩
      · cases h
        exact List.mem_cons_self
      · simp at h
  | cons d' _ ih =>
    rcases List.cons_eq_append_iff.mp hes with ⟨-, h⟩ | ⟨es₁', rfl, h⟩
    · cases h
    · rw [Exchanges.published_publish]
      rcases List.cons_eq_append_iff.mp h with ⟨-, h'⟩ | ⟨es₁'', rfl, h'⟩
      · cases h'
        exact List.mem_cons_self
      · have := ih h'
        exact List.mem_cons_of_mem _ this

/-- What is acknowledged of a group is no longer pending; all else is as it was. -/
structure Acknowledged (topic : String) (ds : List Delivery) (g g' : Group) : Prop where
  next : g'.next = g.next
  redeliver : g'.redeliver = g.redeliver
  pending : ∀ i, g'.pending.contains i = true ↔
    g.pending.contains i = true ∧ ∀ d ∈ ds, d.position ≠ State.position topic i

/-- **A batch at an open handle is promoted as a whole**: the copies are published in its order, and
all of it is acknowledged. -/
theorem Promoted.served (h : Promoted active now ds es r) (served : Serving topic group p es p')
    (hopen : p'.closed = false)
    (hds : ∀ d ∈ ds, ∃ i ≤ Text.maxNat64, d.position = State.position topic i) :
    r = .ok () ∧ es.published active = ds.map (fun d => promotedCopy d.message now) ∧
      Acknowledged topic ds (p.broker.groupOf topic group) (p'.broker.groupOf topic group) := by
  induction h generalizing p with
  | nil =>
    rw [(serving_nil_iff.mp served).1]
    exact ⟨rfl, rfl, rfl, rfl, fun i => ⟨fun h => ⟨h, nofun⟩, And.left⟩⟩
  | refused d ds e =>
    rcases serving_publish_cons served with ⟨he, -, -⟩ | ⟨-, hs⟩
    · cases he
    · exact absurd (hs.closed rfl) (by rw [hopen]; exact Bool.false_ne_true)
  | stuck d ds e =>
    obtain ⟨i, hi, hpos⟩ := hds d List.mem_cons_self
    rcases serving_publish_cons served with ⟨-, -, hs⟩ | ⟨he, -⟩
    · cases (serving_ack_cons hpos hi hs).1
    · cases he
  | @cons d ds es r _ ih =>
    obtain ⟨i, hi, hpos⟩ := hds d List.mem_cons_self
    rcases serving_publish_cons served with ⟨-, -, hs⟩ | ⟨he, -⟩
    · obtain ⟨-, c, -, hs⟩ := serving_ack_cons hpos hi hs
      obtain ⟨hr, hpub, hack⟩ := ih hs fun d' hd' => hds d' (List.mem_cons_of_mem _ hd')
      simp only [State.groupOf_settle, State.groupOf_publish, and_self, if_true] at hack
      refine ⟨hr, ?_, hack.next, hack.redeliver, fun j => ?_⟩
      · rw [Exchanges.published_publish, Exchanges.published_cons, hpub, List.map_cons]
        rfl
      · rw [hack.pending]
        simp only [Group.settle, Dict.contains_erase, List.forall_mem_cons, hpos]
        constructor
        · rintro ⟨⟨hne, hp⟩, hrest⟩
          exact ⟨hp, fun he => hne (State.position_injective he).symm, hrest⟩
        · rintro ⟨hp, hne, hrest⟩
          exact ⟨⟨fun he => hne (by rw [he]), hp⟩, hrest⟩
    · cases he

end

/-! ## Desks -/

/-- A promoter at its broker, and what it has done. -/
structure Desk where
  broker : State
  held : Held
  /-- The last reading of its clock. -/
  clock : Instant
  /-- What came, in the order in which it came, with its due time. -/
  arrivals : List (Waiting Delivery)
  /-- What was published on the active topic. -/
  copies : List Message

/-- What a step comes to. -/
inductive Event (ν : Type) where
  | arrived (d : Delivery)
  | promoted (es : Exchanges ν) (r : Except TransportError Unit)
  | others

/-- When a delivery is due that comes at `now`. -/
def dueOf (d : Delivery) (now : Instant) : Instant := (dueTime? d.message).getD now

/-- **One step** at a desk. -/
inductive Step (ν : Type) (c : Config) : Desk → Event ν → Desk → Prop where
  /-- The promoter receives a delivery and holds it. -/
  | arrived {s : Desk} {wait : Span} {d : Delivery} {es : Exchanges ν} {w : Held} {b : State}
      (run : (hold s.held d).Ends es w)
      (served : Serving c.topics.delayed c.group ⟨s.broker, false⟩
        (⟨.receive wait, .delivery d⟩ :: es) ⟨b, false⟩)
      (onward : (s.clock :: es.readings).Pairwise (· ≤ ·)) :
      Step ν c s (.arrived d)
        { broker := b
          held := w
          clock := es.clockAfter s.clock
          arrivals := s.arrivals ++ [⟨dueOf d (es.clockAfter s.clock), d⟩]
          copies := s.copies ++ es.published c.topics.active }
  /-- The promoter promotes what is due. -/
  | promoted {s : Desk} {es : Exchanges ν} {r : Except TransportError Unit} {w : Held} {b : State}
      (run : (promoteDue c s.held).Ends es (r, w))
      (served : Serving c.topics.delayed c.group ⟨s.broker, false⟩ es ⟨b, false⟩)
      (onward : (s.clock :: es.readings).Pairwise (· ≤ ·)) :
      Step ν c s (.promoted es r)
        { s with
          broker := b
          held := w
          clock := es.clockAfter s.clock
          copies := s.copies ++ es.published c.topics.active }
  /-- Others publish and consume, in groups of their own. -/
  | others {s : Desk} {b : State} (grows : s.broker.Grows b)
      (apart : b.groupOf c.topics.delayed c.group = s.broker.groupOf c.topics.delayed c.group) :
      Step ν c s .others { s with broker := b }

/-- **The desks that some order of steps leads to**, when nothing is pending at first. -/
inductive Reachable (ν : Type) (c : Config) : Desk → Prop where
  | start (b : State) (now : Instant)
      (sound : (b.groupOf c.topics.delayed c.group).Sound (b.messages c.topics.delayed).length)
      (idle : (b.groupOf c.topics.delayed c.group).pending = ∅) :
      Reachable ν c ⟨b, ∅, now, [], []⟩
  | step {s s' : Desk} {e : Event ν} (h : Reachable ν c s) (hs : Step ν c s e s') :
      Reachable ν c s'

variable {c : Config} {s s' : Desk} {e : Event ν}

/-- What the promoters' group has got to. -/
def Desk.group (c : Config) (s : Desk) : Group := s.broker.groupOf c.topics.delayed c.group

/-- Logs only grow. -/
theorem Step.grows (h : Step ν c s e s') : s.broker.Grows s'.broker := by
  cases h with
  | arrived _ served => exact served.grows
  | promoted _ served => exact served.grows
  | others grows => exact grows

/-- The clock never goes back. -/
theorem le_clockAfter {t : Instant} {es : Exchanges ν}
    (h : (t :: es.readings).Pairwise (· ≤ ·)) : t ≤ es.clockAfter t := by
  unfold Exchanges.clockAfter
  cases hl : es.readings.getLast? with
  | none => exact Instant.le_refl t
  | some u => exact (List.pairwise_cons.mp h).1 u (List.mem_of_getLast? hl)

/-! ## What is true of every desk -/

/-- **What is true of every desk.** -/
structure Kept (c : Config) (s : Desk) : Prop where
  sound : (s.group c).Sound (s.broker.messages c.topics.delayed).length
  /-- Nothing was given back. -/
  redeliver : (s.group c).redeliver = []
  /-- What is pending is held, and the other way round. -/
  pending : ∀ i, (s.group c).pending.contains i = true ↔
    ∃ v ∈ s.held.waiting, v.item.position = State.position c.topics.delayed i
  /-- What came is an entry of the log that was handed out. -/
  read : ∀ v ∈ s.arrivals, ∃ i, v.item.position = State.position c.topics.delayed i ∧
    i < (s.group c).next ∧ (s.broker.messages c.topics.delayed)[i]? = some v.item.message
  /-- Every entry comes once. -/
  once : (s.arrivals.map fun v => v.item.position).Nodup
  /-- What came was promoted, when it was due, or is held. -/
  accounted : ∃ gone : List (Instant × Waiting Delivery),
    s.copies = gone.map (fun p => promotedCopy p.2.item.message p.1) ∧
    (∀ p ∈ gone, p.2.due ≤ p.1) ∧ (gone.map Prod.snd ++ s.held.waiting).Perm s.arrivals
  /-- Among what is due at the same instant, the order is that of arrival. -/
  stable : ∀ t, (sameDue t s.held.waiting).Sublist s.arrivals
  /-- What does not say when it is due was due when it came. -/
  due : ∀ v ∈ s.arrivals, dueTime? v.item.message = some v.due ∨
    (dueTime? v.item.message = none ∧ v.due ≤ s.clock)

theorem Kept.mem_arrivals (h : Kept c s) {v : Waiting Delivery} (hv : v ∈ s.held.waiting) :
    v ∈ s.arrivals := by
  obtain ⟨gone, -, -, hperm⟩ := h.accounted
  exact hperm.mem_iff.mp (List.mem_append_right _ hv)

theorem kept_start {b : State} {now : Instant}
    (sound : (b.groupOf c.topics.delayed c.group).Sound (b.messages c.topics.delayed).length)
    (idle : (b.groupOf c.topics.delayed c.group).pending = ∅) : Kept c ⟨b, ∅, now, [], []⟩ where
  sound := sound
  redeliver := by
    refine List.eq_nil_iff_forall_not_mem.mpr fun i hi => ?_
    have := sound.redeliver_pending i hi
    rw [idle, Dict.contains_empty] at this
    cases this
  pending := by
    intro i
    unfold Desk.group
    rw [idle, Dict.contains_empty]
    constructor
    · exact fun h => absurd h Bool.false_ne_true
    · rintro ⟨v, hv, -⟩
      exact absurd hv List.not_mem_nil
  read := fun v hv => absurd hv List.not_mem_nil
  once := List.nodup_nil
  accounted := ⟨[], rfl, fun p hp => absurd hp List.not_mem_nil, List.Perm.refl _⟩
  stable := fun t => List.Sublist.refl _
  due := fun v hv => absurd hv List.not_mem_nil

/-- What others do leaves a desk as it is. -/
theorem Kept.others {b : State} (h : Kept c s) (grows : s.broker.Grows b)
    (apart : b.groupOf c.topics.delayed c.group = s.broker.groupOf c.topics.delayed c.group) :
    Kept c { s with broker := b } := by
  have hg : Desk.group c { s with broker := b } = s.group c := apart
  refine ⟨?_, ?_, ?_, ?_, h.once, h.accounted, h.stable, h.due⟩
  · rw [hg]
    exact h.sound.mono (grows c.topics.delayed).length_le
  · rw [hg]
    exact h.redeliver
  · rw [hg]
    exact h.pending
  · rw [hg]
    intro v hv
    obtain ⟨i, hpos, hlt, hmsg⟩ := h.read v hv
    exact ⟨i, hpos, hlt, grows.getElem? hmsg⟩

/-- A delivery is held under its due time. -/
theorem hold_due {q q' : Held} {d : Delivery} {es : Exchanges ν} (h : (hold q d).Ends es q')
    (t : Instant) :
    es.transport = [] ∧ es.published c.topics.active = [] ∧
      q' = q.push (dueOf d (es.clockAfter t)) d := by
  obtain ⟨htr, -, due, rfl, hdue⟩ := hold_ends h
  refine ⟨htr, ?_, ?_⟩
  · rw [← Exchanges.published_transport, htr]
    rfl
  · unfold dueOf
    rcases hdue with hd | ⟨hd, rfl⟩
    · rw [hd]
      rfl
    · rw [hd]
      rfl

/-- A delivery that comes is the next entry of the log. -/
theorem Kept.arrived {wait : Span} {d : Delivery} {es : Exchanges ν} {w : Held} {b : State}
    (h : Kept c s) (run : (hold s.held d).Ends es w)
    (served : Serving c.topics.delayed c.group ⟨s.broker, false⟩
      (⟨.receive wait, .delivery d⟩ :: es) ⟨b, false⟩)
    (onward : (s.clock :: es.readings).Pairwise (· ≤ ·)) :
    Kept c
      { broker := b
        held := w
        clock := es.clockAfter s.clock
        arrivals := s.arrivals ++ [⟨dueOf d (es.clockAfter s.clock), d⟩]
        copies := s.copies ++ es.published c.topics.active } := by
  obtain ⟨htr, hpub, rfl⟩ := hold_due (c := c) run s.clock
  obtain ⟨cl, p₁, -, h₁, hs⟩ := serving_cons_iff.mp served
  obtain ⟨-, -, hr⟩ := serves_delivery h₁
  obtain ⟨i, g, ht⟩ := State.receive_taken hr
  have hs := serving_transport hs
  rw [htr] at hs
  obtain ⟨rfl, -⟩ := serving_nil_iff.mp hs
  have hg : p₁.broker.groupOf c.topics.delayed c.group = g := by
    rw [ht.groupOf, if_pos ⟨rfl, rfl⟩]
  -- nothing was given back, so what comes is new
  obtain ⟨rfl, hlt, rfl⟩ : i = (s.group c).next ∧
      (s.group c).next < (s.broker.messages c.topics.delayed).length ∧
      g = { s.group c with next := (s.group c).next + 1 }.mark (s.group c).next := by
    rcases Group.take_cases ht.taken with ⟨rest, hrest, -⟩ | ⟨-, hi, hlt, hg'⟩
    · rw [show s.broker.groupOf c.topics.delayed c.group = s.group c from rfl, h.redeliver] at hrest
      cases hrest
    · exact ⟨hi, hlt, hg'⟩
  have new : d.position ∉ s.arrivals.map fun v => v.item.position := by
    intro hmem
    obtain ⟨v, hv, hpos⟩ := List.mem_map.mp hmem
    obtain ⟨j, hj, hlt', -⟩ := h.read v hv
    have := State.position_injective ((hj.symm.trans hpos).trans ht.position)
    omega
  refine ⟨?_, ?_, ?_, ?_, ?_, ?_, ?_, ?_⟩
  · simp only [Desk.group, hg, ht.messages]
    exact Group.take_sound h.sound ht.taken
  · simp only [Desk.group, hg]
    exact h.redeliver
  · intro j
    simp only [Desk.group, hg, Group.contains_mark]
    refine (or_congr Iff.rfl (h.pending j)).trans ?_
    constructor
    · rintro (rfl | ⟨v, hv, hpos⟩)
      · exact ⟨_, mem_push.mpr (Or.inl rfl), ht.position⟩
      · exact ⟨v, mem_push.mpr (Or.inr hv), hpos⟩
    · rintro ⟨v, hv, hpos⟩
      rcases mem_push.mp hv with rfl | hv
      · exact Or.inl (State.position_injective (hpos.symm.trans ht.position))
      · exact Or.inr ⟨v, hv, hpos⟩
  · intro v hv
    simp only [Desk.group, hg, ht.messages]
    rcases List.mem_append.mp hv with hv | hv
    · obtain ⟨j, hpos, hlt', hmsg⟩ := h.read v hv
      exact ⟨j, hpos, Nat.lt_succ_of_lt hlt', hmsg⟩
    · rw [List.mem_singleton.mp hv]
      exact ⟨_, ht.position, Nat.lt_succ_self _, ht.read⟩
  · rw [List.map_append, List.map_singleton]
    exact List.nodup_append.mpr ⟨h.once, List.pairwise_singleton _ _, fun x hx y hy hxy =>
      new (by rw [← List.mem_singleton.mp hy, ← hxy]; exact hx)⟩
  · obtain ⟨gone, hcopies, hdue, hperm⟩ := h.accounted
    refine ⟨gone, ?_, hdue, ?_⟩
    · simp only [hpub, List.append_nil]
      exact hcopies
    · refine ((perm_push s.held _ d).append_left _).trans ?_
      refine List.perm_middle.trans ?_
      exact (List.Perm.cons _ hperm).trans (List.perm_append_singleton _ _).symm
  · intro t
    rw [sameDue_push, sameDue_append]
    exact (h.stable t).append List.filter_sublist
  · intro v hv
    rcases List.mem_append.mp hv with hv | hv
    · rcases h.due v hv with hd | ⟨hd, hle⟩
      · exact Or.inl hd
      · exact Or.inr ⟨hd, Instant.le_trans hle (le_clockAfter onward)⟩
    · rw [List.mem_singleton.mp hv]
      simp only [dueOf]
      cases hd : dueTime? d.message with
      | some due => exact Or.inl rfl
      | none => exact Or.inr ⟨rfl, Instant.le_refl _⟩

/-- What is held and due at an instant, in the order in which it waits. -/
def Desk.dueBy (s : Desk) (now : Instant) : List (Waiting Delivery) :=
  s.held.waiting.filter fun v => v.due ≤ now

theorem mem_dueBy {now : Instant} {v : Waiting Delivery} :
    v ∈ s.dueBy now ↔ v ∈ s.held.waiting ∧ v.due ≤ now := by
  unfold Desk.dueBy
  rw [List.mem_filter, decide_eq_true_iff]

/-- **What promoting does**: what is due is published and acknowledged, in its order, and the rest
stays held. -/
structure Promotes (c : Config) (s : Desk) (es : Exchanges ν) (r : Except TransportError Unit)
    (s' : Desk) : Prop where
  ok : r = .ok ()
  onward : s.clock ≤ s'.clock
  published : es.published c.topics.active =
    (s.dueBy s'.clock).map fun v => promotedCopy v.item.message s'.clock
  ackedAfter : ∀ es₁ d x es₂, es = es₁ ++ ⟨.ack d, x⟩ :: es₂ →
    promotedCopy d.message s'.clock ∈ Exchanges.published c.topics.active es₁
  stay : s'.held.waiting = s.held.waiting.filter fun v => !decide (v.due ≤ s'.clock)

theorem Kept.promoted {es : Exchanges ν} {r : Except TransportError Unit} {w : Held} {b : State}
    (h : Kept c s) (hf : s.broker.Fits) (run : (promoteDue c s.held).Ends es (r, w))
    (served : Serving c.topics.delayed c.group ⟨s.broker, false⟩ es ⟨b, false⟩)
    (onward : (s.clock :: es.readings).Pairwise (· ≤ ·)) (s' : Desk)
    (hs' : s' = { s with
      broker := b
      held := w
      clock := es.clockAfter s.clock
      copies := s.copies ++ es.published c.topics.active }) :
    Promotes c s es r s' ∧ Acknowledged c.topics.delayed ((s.dueBy s'.clock).map Waiting.item)
      (s.group c) (s'.group c) := by
  obtain ⟨now, es', rfl, rfl, hp⟩ := promoteDue_ends run
  have hclock : Exchanges.clockAfter s.clock (⟨.now, now⟩ :: es' : Exchanges ν) = now := by
    unfold Exchanges.clockAfter
    rw [show Exchanges.readings (⟨.now, now⟩ :: es' : Exchanges ν) = [now] from
      congrArg (now :: ·) hp.readings]
    rfl
  have hle := le_clockAfter onward
  rw [hclock] at hle
  rw [hclock] at hs'
  subst hs'
  have htake : s.held.takeDue now = (s.dueBy now).map Waiting.item := takeDue_eq_filter _ _
  rw [htake] at hp
  have hs := serving_transport served
  rw [show Exchanges.transport ((⟨.now, now⟩ : Exchange (Answer ν)) :: es') = es' from
    hp.transport.1] at hs
  obtain ⟨hr, hpub, hack⟩ := hp.served hs rfl fun d hd => by
    obtain ⟨v, hv, rfl⟩ := List.mem_map.mp hd
    obtain ⟨i, hpos, -, hmsg⟩ := h.read v (h.mem_arrivals (mem_dueBy.mp hv).1)
    exact ⟨i, hf.index_le hmsg, hpos⟩
  refine ⟨⟨hr, hle, ?_, ?_, waiting_dropDue _ _⟩, hack⟩
  · rw [List.map_map] at hpub
    exact hpub
  · intro es₁ d x es₂ hes
    rcases List.cons_eq_append_iff.mp hes with ⟨-, h⟩ | ⟨es₁', rfl, h⟩
    · cases h
    · have := hp.ack_after h
      exact this

end TaskQueue.Promotion
