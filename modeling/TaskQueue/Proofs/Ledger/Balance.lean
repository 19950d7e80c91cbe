import TaskQueue.Proofs.Ledger.Basic

/-!
# Balanced books

The books of a queue are balanced when every accepted task is at exactly one place, every entry of a
log belongs to an accepted task, and the groups that read the logs are sound. Everything that
components do to a broker keeps books balanced: accepting a task, handing an entry out, forwarding
it, giving it back and resolving it.

Results:

* `Balanced.accept`, `Balanced.take`, `Balanced.forward`, `Balanced.requeue`, `Balanced.resolve`:
  each of these keeps the books balanced;
* `Out.publish`, `Out.settle`, `Out.requeue`, `Out.take`: what the others do leaves a delivery out.
-/

namespace TaskQueue.Ledger

open Broker

/-- **Every accepted task is at exactly one place**, and all that is on the books is an accepted
task. -/
structure Balanced (q : Setup) (l : Books) : Prop where
  sound : ∀ lane g, q.group? lane = some g →
    (l.broker.groupOf (q.topic lane) g).Sound (l.broker.messages (q.topic lane)).length
  named : ∀ lane m, m ∈ l.broker.messages (q.topic lane) →
    ∃ id ∈ l.accepted, m.header? Header.correlationId = some id
  known : ∀ id ∈ l.resolved, id ∈ l.accepted
  once : ∀ id ∈ l.accepted, ∃! p, LiesAt q l id p

variable {q : Setup} {l : Books} {b b' : State} {lane lane' : Lane} {i j : Nat} {id g : String}
  {d d' : Delivery} {m : Message} {grp : Group}

/-! ## Deliveries that are out -/

theorem Out.lt (h : Out q b lane d i) : i < (b.messages (q.topic lane)).length :=
  (List.getElem?_eq_some_iff.mp h.read).1

/-- A delivery that is out stays so when logs grow and its group is not touched. -/
theorem Out.of_grows (h : Out q b lane d i) (hb : b.Grows b')
    (hg : ∀ g, q.group? lane = some g → b'.groupOf (q.topic lane) g = b.groupOf (q.topic lane) g) :
    Out q b' lane d i where
  position := h.position
  read := hb.getElem? h.read
  pending := by
    intro g' hg'
    rw [hg g' hg']
    exact h.pending g' hg'
  kept := by
    intro g' hg'
    rw [hg g' hg']
    exact h.kept g' hg'

theorem Out.publish (h : Out q b lane d i) (t : String) (m : Message) :
    Out q (b.publish t m) lane d i :=
  h.of_grows (State.grows_publish b t m) fun g _ => State.groupOf_publish b t m _ g

/-- Settling another delivery leaves a delivery out. -/
theorem Out.settle (h : Out q b lane d i) (hne : lane' = lane → j ≠ i) (g : String) :
    Out q (b.changeGroup (q.topic lane') g (·.settle j)) lane d i where
  position := h.position
  read := by
    rw [State.messages_changeGroup]
    exact h.read
  pending := by
    intro g' hg'
    refine q.changed_cases (P := fun grp => grp.pending.contains i = true)
      (State.groupOf_settle _ _ _ _ _ _) ?_ (h.pending g' hg')
    rintro rfl rfl
    exact (Dict.contains_erase _ _ _).mpr ⟨fun he => hne rfl he.symm, h.pending g' hg'⟩
  kept := by
    intro g' hg'
    refine q.changed_cases (P := fun grp => i ∉ grp.redeliver)
      (State.groupOf_settle _ _ _ _ _ _) ?_ (h.kept g' hg')
    rintro rfl rfl
    exact h.kept g' hg'

/-- Giving another delivery back leaves a delivery out. -/
theorem Out.requeue (h : Out q b lane d i) (hne : lane' = lane → j ≠ i) (g : String) :
    Out q (b.changeGroup (q.topic lane') g (·.requeue j)) lane d i where
  position := h.position
  read := by
    rw [State.messages_changeGroup]
    exact h.read
  pending := by
    intro g' hg'
    refine q.changed_cases (P := fun grp => grp.pending.contains i = true)
      (State.groupOf_requeue _ _ _ _ _ _) ?_ (h.pending g' hg')
    rintro rfl rfl
    unfold Group.requeue
    split
    · exact h.pending g' hg'
    · exact h.pending g' hg'
  kept := by
    intro g' hg'
    refine q.changed_cases (P := fun grp => i ∉ grp.redeliver)
      (State.groupOf_requeue _ _ _ _ _ _) ?_ (h.kept g' hg')
    rintro rfl rfl
    unfold Group.requeue
    split
    · intro hi
      rcases List.mem_append.mp hi with hi | hi
      · exact h.kept g' hg' hi
      · exact hne rfl (List.mem_singleton.mp hi).symm
    · exact h.kept g' hg'

/-- Handing another delivery out leaves a delivery out, and it is another one indeed. -/
theorem Out.take (h : Out q b lane d i) (hg : q.group? lane' = some g)
    (hs : (b.groupOf (q.topic lane') g).Sound (b.messages (q.topic lane')).length)
    (ht : b.Taken (q.topic lane') g d' j grp b') :
    Out q b' lane d i ∧ (lane' = lane → j ≠ i) := by
  have hne : lane' = lane → j ≠ i := by
    rintro rfl
    exact (Group.ne_of_take hs ht.taken (h.pending g hg) (h.kept g hg)).symm
  refine ⟨⟨h.position, (State.Grows.of_messages_eq ht.messages).getElem? h.read, ?_, ?_⟩, hne⟩
  · intro g' hg'
    refine q.changed_cases (P := fun grp => grp.pending.contains i = true) (ht.groupOf _ _) ?_
      (h.pending g' hg')
    rintro rfl rfl
    exact Group.pending_take_of_pending ht.taken (h.pending g' hg')
  · intro g' hg'
    refine q.changed_cases (P := fun grp => i ∉ grp.redeliver) (ht.groupOf _ _) ?_ (h.kept g' hg')
    rintro rfl rfl
    exact fun hi => h.kept g' hg' (Group.mem_redeliver_of_take ht.taken hi)

/-! ## Books stay balanced -/

/-- Whoever is at a place was accepted. -/
theorem Balanced.accepted_of_liesAt (h : Balanced q l) {p : Place} (hp : LiesAt q l id p) :
    id ∈ l.accepted := by
  cases p with
  | resolved k => exact h.known id (List.mem_of_getElem? hp)
  | entry lane k =>
    obtain ⟨m, hm, hid⟩ := hp.1
    obtain ⟨id', hid', hm'⟩ := h.named lane m (List.mem_of_getElem? hm)
    rw [hid] at hm'
    obtain rfl := Option.some.inj hm'
    exact hid'

theorem sound_publish {t : String} {g : String}
    (hs : (b.groupOf t g).Sound (b.messages t).length) (t' : String) (m : Message) :
    ((b.publish t' m).groupOf t g).Sound ((b.publish t' m).messages t).length := by
  rw [State.groupOf_publish]
  exact hs.mono (State.grows_publish b t' m t).length_le

theorem mem_publish {m' : Message}
    (h : m' ∈ (b.publish (q.topic lane) m).messages (q.topic lane')) :
    m' = m ∨ m' ∈ b.messages (q.topic lane') := by
  rw [State.messages_publish] at h
  split at h
  · next he =>
    rw [he]
    rcases List.mem_append.mp h with h | h
    · exact Or.inr h
    · exact Or.inl (List.mem_singleton.mp h)
  · exact Or.inr h

/-- **A task is accepted** under a new identifier. -/
theorem Balanced.accept (h : Balanced q l) (hm : m.header? Header.correlationId = some id)
    (new : id ∉ l.accepted) :
    Balanced q { l with
      broker := l.broker.publish (q.topic lane) m
      accepted := id :: l.accepted } where
  sound := fun lane' g hg => sound_publish (h.sound lane' g hg) _ m
  named := by
    intro lane' m' hm'
    rcases mem_publish hm' with rfl | hm'
    · exact ⟨id, List.mem_cons_self, hm⟩
    · obtain ⟨id', hid', hn⟩ := h.named lane' m' hm'
      exact ⟨id', List.mem_cons_of_mem _ hid', hn⟩
  known := fun id' hid' => List.mem_cons_of_mem _ (h.known id' hid')
  once := by
    intro id' hid'
    refine existsUnique_add _ (fun x p => liesAt_publish (h.sound lane) x p hm)
      (fun p hp => new (h.accepted_of_liesAt hp)) ?_
    rcases List.mem_cons.mp hid' with rfl | hid'
    · exact Or.inl rfl
    · exact Or.inr (h.once id' hid')

/-- The task of a delivery that is out is at its entry, and alone there. -/
theorem Out.liesAt (h : Out q l.broker lane d i)
    (hd : d.message.header? Header.correlationId = some id) :
    LiesAt q l id (.entry lane i) ∧ ∀ x, LiesAt q l x (.entry lane i) → x = id := by
  have hn : Names q l.broker lane i id := ⟨d.message, h.read, hd⟩
  exact ⟨⟨hn, fun g hg => Or.inr (h.pending g hg)⟩, fun x hx => hn.unique hx.1⟩

theorem sound_settle (h : Balanced q l) (out : Out q l.broker lane d i) {lane' : Lane} {g' : String}
    (hg' : q.group? lane' = some g') :
    ((l.broker.changeGroup (q.topic lane) g (·.settle i)).groupOf (q.topic lane') g').Sound
      (l.broker.messages (q.topic lane')).length := by
  refine q.changed_cases (P := fun grp => grp.Sound (l.broker.messages (q.topic lane')).length)
    (State.groupOf_settle _ _ _ _ _ _) ?_ (h.sound lane' g' hg')
  rintro rfl rfl
  exact Group.settle_sound (h.sound lane' g' hg') (out.kept g' hg')

/-- **A task goes on as a copy**: the copy is published and the entry settled. -/
theorem Balanced.forward (h : Balanced q l) (lane' : Lane) (hg : q.group? lane = some g)
    (out : Out q l.broker lane d i) (hd : d.message.header? Header.correlationId = some id)
    (hm : m.header? Header.correlationId = some id) :
    Balanced q { l with
      broker :=
        (l.broker.publish (q.topic lane') m).changeGroup (q.topic lane) g (·.settle i) } := by
  have hid : id ∈ l.accepted := h.accepted_of_liesAt (out.liesAt hd).1
  -- the books after the copy was published: the task is at two places
  have out' := out.publish (q.topic lane') m
  have hs := sound_publish (h.sound lane g hg) (q.topic lane') m
  refine ⟨?_, ?_, h.known, ?_⟩
  · intro lane'' g' hg'
    have hs' := sound_publish (h.sound lane'' g' hg') (q.topic lane') m
    simp only [State.messages_changeGroup]
    refine q.changed_cases (P := fun grp => grp.Sound _) (State.groupOf_settle _ _ _ _ _ _) ?_ hs'
    rintro rfl rfl
    exact Group.settle_sound hs' (out'.kept g' hg')
  · intro lane'' m' hm'
    simp only [State.messages_changeGroup] at hm'
    rcases mem_publish hm' with rfl | hm'
    · exact ⟨id, hid, hm⟩
    · exact h.named lane'' m' hm'
  · intro id' hid'
    refine existsUnique_move (.entry lane' (l.broker.messages (q.topic lane')).length)
      (out.liesAt hd).1 (out.liesAt hd).2 (fun x p => ?_) (h.once id' hid')
    rw [liesAt_settle (l := { l with broker := l.broker.publish (q.topic lane') m }) hg hs
      (out'.pending g hg), liesAt_publish (h.sound lane') x p hm]
    constructor
    · rintro ⟨hp | hp, hne⟩
      · exact Or.inl ⟨hp, hne⟩
      · exact Or.inr hp
    · rintro (⟨hp, hne⟩ | ⟨rfl, rfl⟩)
      · exact ⟨Or.inl hp, hne⟩
      · refine ⟨Or.inr ⟨rfl, rfl⟩, fun he => ?_⟩
        obtain ⟨rfl, rfl⟩ := Place.entry.inj he
        exact absurd out.lt (Nat.lt_irrefl _)

/-- **A task is resolved**: its entry is settled. -/
theorem Balanced.resolve (h : Balanced q l) (hg : q.group? lane = some g)
    (out : Out q l.broker lane d i) (hd : d.message.header? Header.correlationId = some id) :
    Balanced q { l with
      broker := l.broker.changeGroup (q.topic lane) g (·.settle i)
      resolved := l.resolved ++ [id] } := by
  have hid : id ∈ l.accepted := h.accepted_of_liesAt (out.liesAt hd).1
  refine ⟨?_, ?_, ?_, ?_⟩
  · intro lane' g' hg'
    simp only [State.messages_changeGroup]
    exact sound_settle h out hg'
  · intro lane' m' hm'
    simp only [State.messages_changeGroup] at hm'
    exact h.named lane' m' hm'
  · intro id' hid'
    rcases List.mem_append.mp hid' with hid' | hid'
    · exact h.known id' hid'
    · rw [List.mem_singleton.mp hid']
      exact hid
  · intro id' hid'
    refine existsUnique_move (.resolved l.resolved.length)
      (out.liesAt hd).1 (out.liesAt hd).2 (fun x p => ?_) (h.once id' hid')
    rw [liesAt_resolve
        { l with broker := l.broker.changeGroup (q.topic lane) g (·.settle i) } id x p,
      liesAt_settle hg (h.sound lane g hg) (out.pending g hg)]

/-- Books stay balanced when logs stay as they are and the same entries are unsettled. -/
theorem Balanced.congr (h : Balanced q l) (hm : ∀ t, b'.messages t = l.broker.messages t)
    (hs : ∀ lane g, q.group? lane = some g →
      (b'.groupOf (q.topic lane) g).Sound (l.broker.messages (q.topic lane)).length)
    (hu : ∀ lane g k, q.group? lane = some g →
      ((b'.groupOf (q.topic lane) g).Unsettled k ↔
        (l.broker.groupOf (q.topic lane) g).Unsettled k)) :
    Balanced q { l with broker := b' } where
  sound := by
    intro lane g hg
    simp only [hm]
    exact hs lane g hg
  named := by
    intro lane m' hm'
    simp only [hm] at hm'
    exact h.named lane m' hm'
  known := h.known
  once := by
    intro id hid
    simp only [liesAt_congr hm hu]
    exact h.once id hid

/-- **An entry is given back.** -/
theorem Balanced.requeue (h : Balanced q l) (hg : q.group? lane = some g)
    (out : Out q l.broker lane d i) :
    Balanced q { l with broker := l.broker.changeGroup (q.topic lane) g (·.requeue i) } := by
  refine h.congr (fun t => State.messages_changeGroup _ _ _ _ t) ?_ ?_
  · intro lane' g' hg'
    refine q.changed_cases (P := fun grp => grp.Sound _) (State.groupOf_requeue _ _ _ _ _ _) ?_
      (h.sound lane' g' hg')
    rintro rfl rfl
    exact Group.requeue_sound (h.sound lane' g' hg') (out.kept g' hg')
  · intro lane' g' k _
    refine q.changed_cases
      (P := fun grp => grp.Unsettled k ↔ (l.broker.groupOf (q.topic lane') g').Unsettled k)
      (State.groupOf_requeue _ _ _ _ _ _) ?_ Iff.rfl
    rintro rfl rfl
    exact Group.unsettled_requeue

/-- **An entry is handed out.** -/
theorem Balanced.take (h : Balanced q l) (hg : q.group? lane = some g)
    (ht : l.broker.Taken (q.topic lane) g d i grp b') :
    Balanced q { l with broker := b' } ∧ Out q b' lane d i := by
  have hs := h.sound lane g hg
  have hself : b'.groupOf (q.topic lane) g = grp := by rw [ht.groupOf, if_pos ⟨rfl, rfl⟩]
  refine ⟨h.congr ht.messages ?_ ?_, ht.position, ?_, ?_, ?_⟩
  · intro lane' g' hg'
    refine q.changed_cases (P := fun grp => grp.Sound _) (ht.groupOf _ _) ?_ (h.sound lane' g' hg')
    rintro rfl rfl
    exact Group.take_sound hs ht.taken
  · intro lane' g' k _
    refine q.changed_cases
      (P := fun grp => grp.Unsettled k ↔ (l.broker.groupOf (q.topic lane') g').Unsettled k)
      (ht.groupOf _ _) ?_ Iff.rfl
    rintro rfl rfl
    exact Group.unsettled_take hs ht.taken
  · rw [ht.messages]
    exact ht.read
  · intro g' hg'
    obtain rfl : g = g' := Option.some.inj (hg.symm.trans hg')
    rw [hself]
    exact Group.pending_take ht.taken
  · intro g' hg'
    obtain rfl : g = g' := Option.some.inj (hg.symm.trans hg')
    rw [hself]
    exact Group.not_mem_redeliver_take hs ht.taken

/-- Joining a group changes nothing. -/
theorem Balanced.subscribe (h : Balanced q l) (topic group : String) :
    Balanced q { l with broker := l.broker.subscribe topic group } := by
  refine h.congr (fun t => State.messages_subscribe _ _ _ t) ?_ ?_
  · intro lane g hg
    rw [State.groupOf_subscribe]
    exact h.sound lane g hg
  · intro lane g k _
    rw [State.groupOf_subscribe]

end TaskQueue.Ledger
