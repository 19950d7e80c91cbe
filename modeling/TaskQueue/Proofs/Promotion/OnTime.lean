import Mathlib.Data.List.Nodup
import TaskQueue.Proofs.Broker.Next
import TaskQueue.Proofs.Message.Copies
import TaskQueue.Proofs.Promotion.DueTime
import TaskQueue.Proofs.Promotion.Run

/-!
# Every message is promoted once, when it is due

Over every run of a promoter, in whatever order deliveries come and batches are promoted: what came
is held or was promoted, once. A batch has all that is held and due by the clock, and nothing else,
in the order of due times, and of arrival where these are the same. A message that does not say when
it is due goes with the first batch after it came. The pending entries of the group are those that
are held.

Results:

* `Kept.promotes`, `Step.kept`, `Reachable.kept`: every step keeps the desk in order;
* `exists_promoted`: what is due can be promoted at any time;
* `promoted_once_when_due`: the result, which is what `Punctual` and `Batch` say.
-/

namespace TaskQueue.Promotion

open Broker Engine Time DelayQueue

variable {ν : Type} {c : Config} {s s' : Desk} {e : Event ν} {es : Exchanges ν}
  {r : Except TransportError Unit}

/-! ## A batch -/

/-- What came is known by its position. -/
theorem Kept.eq_of_position (h : Kept c s) {u v : Waiting Delivery} (hu : u ∈ s.held.waiting)
    (hv : v ∈ s.held.waiting) (hpos : u.item.position = v.item.position) : u = v :=
  List.inj_on_of_nodup_map h.once (h.mem_arrivals hu) (h.mem_arrivals hv) hpos

/-- What is held after a batch was held before, and is due later. -/
theorem Promotes.mem_held (h : Promotes c s es r s') {v : Waiting Delivery} :
    v ∈ s'.held.waiting ↔ v ∈ s.held.waiting ∧ ¬ v.due ≤ s'.clock := by
  rw [h.stay, List.mem_filter]
  simp

/-- After a batch, what is pending is what is still held. -/
theorem Kept.pending_promotes (h : Kept c s) (hp : Promotes c s es r s')
    (hack : Acknowledged c.topics.delayed ((s.dueBy s'.clock).map Waiting.item) (s.group c)
      (s'.group c)) (i : Nat) :
    (s'.group c).pending.contains i = true ↔
      ∃ v ∈ s'.held.waiting, v.item.position = State.position c.topics.delayed i := by
  rw [hack.pending, h.pending]
  constructor
  · rintro ⟨⟨v, hv, hpos⟩, hne⟩
    refine ⟨v, hp.mem_held.mpr ⟨hv, fun hdue => ?_⟩, hpos⟩
    exact hne v.item (List.mem_map.mpr ⟨v, mem_dueBy.mpr ⟨hv, hdue⟩, rfl⟩) hpos
  · rintro ⟨v, hv, hpos⟩
    obtain ⟨hv, hlater⟩ := hp.mem_held.mp hv
    refine ⟨⟨v, hv, hpos⟩, fun d hd hpos' => ?_⟩
    obtain ⟨u, hu, rfl⟩ := List.mem_map.mp hd
    obtain ⟨hu, hdue⟩ := mem_dueBy.mp hu
    obtain rfl := h.eq_of_position hu hv (hpos'.trans hpos.symm)
    exact hlater hdue

/-- **Promoting a batch keeps the desk in order.** -/
theorem Kept.promotes (h : Kept c s) (hp : Promotes c s es r s')
    (hack : Acknowledged c.topics.delayed ((s.dueBy s'.clock).map Waiting.item) (s.group c)
      (s'.group c))
    (grows : s.broker.Grows s'.broker) (harrivals : s'.arrivals = s.arrivals)
    (hcopies : s'.copies = s.copies ++ es.published c.topics.active) : Kept c s' where
  sound := by
    have hs := h.sound.mono (grows c.topics.delayed).length_le
    refine ⟨hack.next ▸ hs.next_le, fun i hi => ?_, fun i hi => ?_, ?_⟩
    · rw [hack.next]
      exact hs.pending_lt i ((hack.pending i).mp hi).1
    · rw [hack.redeliver, h.redeliver] at hi
      exact absurd hi List.not_mem_nil
    · rw [hack.redeliver]
      exact hs.nodup
  redeliver := hack.redeliver.trans h.redeliver
  pending := h.pending_promotes hp hack
  read := by
    intro v hv
    rw [harrivals] at hv
    obtain ⟨i, hpos, hlt, hmsg⟩ := h.read v hv
    exact ⟨i, hpos, hack.next ▸ hlt, grows.getElem? hmsg⟩
  once := harrivals ▸ h.once
  accounted := by
    obtain ⟨gone, hgone, hdue, hperm⟩ := h.accounted
    refine ⟨gone ++ (s.dueBy s'.clock).map fun v => (s'.clock, v), ?_, ?_, ?_⟩
    · rw [hcopies, hgone, hp.published, List.map_append, List.map_map]
      rfl
    · intro p hmem
      rcases List.mem_append.mp hmem with hmem | hmem
      · exact hdue p hmem
      · obtain ⟨v, hv, rfl⟩ := List.mem_map.mp hmem
        exact (mem_dueBy.mp hv).2
    · rw [harrivals, List.map_append, List.map_map, List.append_assoc, hp.stay]
      refine (List.Perm.append_left _ ?_).trans hperm
      have : (Prod.snd ∘ fun v : Waiting Delivery => (s'.clock, v)) = id := rfl
      rw [this, List.map_id]
      exact List.filter_append_perm _ _
  stable := by
    intro t
    rw [harrivals, hp.stay]
    exact (List.Sublist.filter _ List.filter_sublist).trans (h.stable t)
  due := by
    intro v hv
    rw [harrivals] at hv
    rcases h.due v hv with hd | ⟨hd, hle⟩
    · exact Or.inl hd
    · exact Or.inr ⟨hd, Instant.le_trans hle hp.onward⟩

/-! ## Runs -/

/-- **Every step keeps the desk in order.** -/
theorem Step.kept (hs : Step ν c s e s') (hf : s.broker.Fits) (h : Kept c s) : Kept c s' := by
  cases hs with
  | arrived run served onward => exact h.arrived run served onward
  | promoted run served onward =>
    obtain ⟨hp, hack⟩ := h.promoted hf run served onward _ rfl
    exact h.promotes hp hack served.grows rfl rfl
  | others grows apart => exact h.others grows apart

/-- **The desk is in order in every run.** -/
theorem Reachable.kept (h : Reachable ν c s) (hf : s.broker.Fits) : Kept c s := by
  induction h with
  | start b now sound idle => exact kept_start sound idle
  | step _ hs ih =>
    have hf := hs.grows.fits hf
    exact hs.kept hf (ih hf)

/-- **What is due can be promoted at any time.** -/
theorem exists_promoted {now : Instant} (hnow : s.clock ≤ now) :
    ∃ (es : Exchanges ν) (r : Except TransportError Unit) (s' : Desk),
      Step ν c s (.promoted es r) s' ∧ s'.clock = now := by
  obtain ⟨es, r, b, hp, served⟩ := Promoted.exists_serving (ν := ν) c.topics.delayed c.group
    c.topics.active now (s.held.takeDue now) s.broker
  have hreadings : Exchanges.readings (⟨.now, now⟩ :: es : Exchanges ν) = [now] :=
    congrArg (now :: ·) hp.readings
  refine ⟨_, r, _, .promoted hp.promoteDue_ends (.cons (.elsewhere _ rfl) served) ?_, ?_⟩
  · rw [hreadings]
    exact List.pairwise_cons.mpr ⟨fun t ht => List.mem_singleton.mp ht ▸ hnow,
      List.pairwise_singleton _ _⟩
  · simp only [Exchanges.clockAfter, hreadings]
    rfl

/-! ## The result -/

/-- When a message says that it is due at an instant, that is not after `now`. -/
def DueBy (m : Message) (now : Instant) : Prop := ∀ t, dueTime? m = some t → t ≤ now

/-- What is due by the clock is what says so, or does not say when. -/
theorem Kept.due_iff (h : Kept c s) {v : Waiting Delivery} (hv : v ∈ s.arrivals) {now : Instant}
    (hnow : s.clock ≤ now) : v.due ≤ now ↔ DueBy v.item.message now := by
  unfold DueBy
  rcases h.due v hv with hd | ⟨hd, hle⟩
  · rw [hd]
    simp
  · rw [hd]
    simp [Instant.le_trans hle hnow]

/-- **A batch**: what is held and due, and nothing else, in the order of due times, and of arrival
where these are the same. It is published on the active topic. -/
structure Batch (c : Config) (s : Desk) (es : Exchanges ν) (r : Except TransportError Unit)
    (s' : Desk) : Prop extends Promotes c s es r s' where
  appended : s'.broker.messages c.topics.active =
    s.broker.messages c.topics.active ++ es.published c.topics.active
  mem_iff : ∀ v, v ∈ s.dueBy s'.clock ↔
    v ∈ s.held.waiting ∧ DueBy v.item.message s'.clock
  sorted : (s.dueBy s'.clock).Pairwise fun u v => u.due ≤ v.due
  ties : ∀ t, (sameDue t (s.dueBy s'.clock)).Sublist s.arrivals
  /-- Nothing that is due stays. -/
  later : ∀ v ∈ s'.held.waiting, s'.clock < v.due ∧ ¬ DueBy v.item.message s'.clock

theorem Kept.batch (h : Kept c s) (hf : s.broker.Fits) (hs : Step ν c s (.promoted es r) s') :
    Batch c s es r s' := by
  cases hs with
  | promoted run served onward =>
    obtain ⟨hp, -⟩ := h.promoted hf run served onward _ rfl
    refine ⟨hp, served.messages _, fun v => ?_, ?_, fun t => ?_, fun v hv => ?_⟩
    · rw [mem_dueBy]
      exact and_congr_right fun hv => h.due_iff (h.mem_arrivals hv) hp.onward
    · exact s.held.sorted.filter _
    · exact (List.Sublist.filter _ List.filter_sublist).trans (h.stable t)
    · obtain ⟨hv, hlater⟩ := hp.mem_held.mp hv
      exact ⟨hlater, fun hd => hlater ((h.due_iff (h.mem_arrivals hv) hp.onward).mpr hd)⟩

/-- What came was promoted once, at an instant when it was due, or is held. -/
theorem Kept.once_or_held (h : Kept c s) : ∃ gone : List (Instant × Waiting Delivery),
    s.copies = gone.map (fun p => promotedCopy p.2.item.message p.1) ∧
    (∀ p ∈ gone, DueBy p.2.item.message p.1) ∧
    (gone.map Prod.snd ++ s.held.waiting).Perm s.arrivals := by
  obtain ⟨gone, hcopies, hdue, hperm⟩ := h.accounted
  refine ⟨gone, hcopies, fun p hp t ht => ?_, hperm⟩
  have hmem : p.2 ∈ s.arrivals :=
    hperm.mem_iff.mp (List.mem_append_left _ (List.mem_map.mpr ⟨p, hp, rfl⟩))
  rcases h.due p.2 hmem with hd | ⟨hd, -⟩
  · obtain rfl := Option.some.inj (hd.symm.trans ht)
    exact hdue p hp
  · rw [hd] at ht
    cases ht

/-- Receiving publishes nothing. -/
theorem Step.copies_arrived {d : Delivery} (hs : Step ν c s (.arrived d) s') :
    s'.copies = s.copies := by
  cases hs with
  | arrived run served onward =>
    simp only [(hold_due (c := c) run s.clock).2.1, List.append_nil]

/-- **What a promoter keeps to**, whatever has come to it and whatever it has promoted. -/
structure Punctual (ν : Type) (c : Config) (s : Desk) : Prop where
  /-- The pending entries are those that are held. -/
  pending : ∀ i, (s.group c).pending.contains i = true ↔
    ∃ v ∈ s.held.waiting, v.item.position = State.position c.topics.delayed i
  /-- Every message came once. -/
  once : (s.arrivals.map fun v => v.item.position).Nodup
  /-- It is due when it says so, or when it came. -/
  due : ∀ v ∈ s.arrivals, dueTime? v.item.message = some v.due ∨
    (dueTime? v.item.message = none ∧ v.due ≤ s.clock)
  /-- It was promoted once, when it was due, or is held. -/
  accounted : ∃ gone : List (Instant × Waiting Delivery),
    s.copies = gone.map (fun p => promotedCopy p.2.item.message p.1) ∧
    (∀ p ∈ gone, DueBy p.2.item.message p.1) ∧
    (gone.map Prod.snd ++ s.held.waiting).Perm s.arrivals
  /-- Its copy differs from it in one header only. -/
  copy : ∀ m now name, (promotedCopy m now).key = m.key ∧
    (promotedCopy m now).payload = m.payload ∧
    (promotedCopy m now).header? name =
      if name = Header.promotedAt then some now.renderMillis else m.header? name
  /-- Receiving publishes nothing. -/
  received : ∀ d s', Step ν c s (.arrived d) s' → s'.copies = s.copies
  /-- A batch can be promoted at any time. -/
  progress : ∀ now, s.clock ≤ now → ∃ (es : Exchanges ν) (r : Except TransportError Unit)
    (s' : Desk), Step ν c s (.promoted es r) s' ∧ s'.clock = now
  /-- A batch has all that is held and due, and nothing else. -/
  batch : ∀ (es : Exchanges ν) r s', Step ν c s (.promoted es r) s' → Batch c s es r s'

/-- **Every message is promoted once, when it is due**, in every run. -/
theorem promoted_once_when_due (h : Reachable ν c s) (hf : s.broker.Fits) : Punctual ν c s where
  pending := (h.kept hf).pending
  once := (h.kept hf).once
  due := (h.kept hf).due
  accounted := (h.kept hf).once_or_held
  copy _ _ _ := ⟨key_promotedCopy, payload_promotedCopy, Message.header?_setHeader _ _ _ _⟩
  received _ _ hs := hs.copies_arrived
  progress _ hnow := exists_promoted hnow
  batch _ _ _ hs := (h.kept hf).batch hf hs

/-- A task that is put on the queue for later is held through a batch before it is due, and pending
all the while. The batch when it is due is its copy alone. -/
theorem delayed_promoted_when_due :
    ∃ (c : Config) (m : Message) (due : Instant) (s s' s'' : Desk)
      (es es' : Exchanges Number.Double),
      Reachable Number.Double c s ∧ s.broker.Fits ∧ dueTime? m = some due ∧ s.clock < due ∧
      Step Number.Double c s (.promoted es (.ok ())) s' ∧ s'.clock = s.clock ∧
      es.published c.topics.active = [] ∧ (s'.group c).pending.contains 0 = true ∧
      Step Number.Double c s' (.promoted es' (.ok ())) s'' ∧ s''.clock = due ∧
      es'.published c.topics.active = [promotedCopy m due] ∧ s''.held.waiting = [] := by
  let c : Config := ⟨⟨"ready", "waiting", "dead"⟩, "promoters", .zero⟩
  let due : Instant := ⟨1, 0, by decide, by decide, by decide⟩
  let m : Message := Client.delayedMessage ⟨"t", [], ∅⟩ "t" .epoch due
  let d : Delivery := ⟨State.position "waiting" 0, m, 1⟩
  let b : State := (∅ : State).publish "waiting" m
  have hdue : dueTime? m = some due := by
    rw [dueTime?_delayedMessage, told_eq_iff.mpr (by decide)]
  obtain ⟨b', hr, -, logs, -⟩ := (State.nextAt_empty "waiting" "promoters").publish.exists_receive
    (b := b) (by rw [State.messages_publish_self]; rfl)
  have hb' : b'.Fits := by
    intro t
    rw [logs]
    exact Nat.le_trans (State.length_publish_le ∅ "waiting" m t)
      (Nat.succ_le_succ (Nat.zero_le Text.maxNat64))
  have hstart : Reachable Number.Double c ⟨b, ∅, .epoch, [], []⟩ := by
    have hb : b.groupOf "waiting" "promoters" = .fresh := State.groupOf_publish _ _ _ _ _
    exact .start b .epoch (hb ▸ Group.fresh_sound _) (hb ▸ rfl)
  have arrived := hstart.step (.arrived (hold_told (d := d) hdue)
    (.cons (.delivered .zero hr) (.nil _)) (List.pairwise_singleton _ _))
  obtain ⟨s, h, rfl, held, clock⟩ : ∃ s, Reachable Number.Double c s ∧ s.broker = b' ∧
      s.held = (∅ : Held).push due d ∧ s.clock = .epoch := ⟨_, arrived, rfl, rfl, rfl⟩
  -- a second too early, a batch is empty
  have early : Promoted "ready" .epoch (s.held.takeDue .epoch) ([] : Exchanges Number.Double)
      (.ok ()) := by
    rw [held]
    exact .nil
  have stays : (s.held.dropDue .epoch).waiting = [⟨due, d⟩] := by
    rw [held]
    rfl
  obtain ⟨s', step, broker', held', clock'⟩ : ∃ s', Step Number.Double c s
      (.promoted [⟨.now, .epoch⟩] (.ok ())) s' ∧ s'.broker = s.broker ∧
      s'.held.waiting = [⟨due, d⟩] ∧ s'.clock = .epoch :=
    ⟨_, .promoted early.promoteDue_ends (.cons (.elsewhere _ rfl) (.nil _)) (by rw [clock]; decide),
      rfl, stays, rfl⟩
  have hp := promoted_once_when_due (h.step step) (broker'.symm ▸ hb')
  obtain ⟨es, r, s'', hs, hclock⟩ := hp.progress due (by rw [clock']; decide)
  have hbatch := hp.batch es r s'' hs
  obtain rfl := hbatch.ok
  have pending : (s'.group c).pending.contains 0 = true :=
    (hp.pending 0).mpr ⟨⟨due, d⟩, held' ▸ List.mem_cons_self, rfl⟩
  refine ⟨c, m, due, s, s', s'', _, es, h, hb', hdue, ?_, step, clock'.trans clock.symm, rfl,
    pending, hs, hclock, ?_, ?_⟩
  · rw [clock]
    decide
  · rw [hbatch.published, hclock, Desk.dueBy, held']
    rfl
  · rw [hbatch.stay, hclock, held']
    rfl

end TaskQueue.Promotion
