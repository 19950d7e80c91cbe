import Mathlib.Logic.ExistsUnique
import TaskQueue.Message.Header
import TaskQueue.Proofs.Broker.State
import TaskQueue.Queue.Topics

/-!
# Where a task is

The tasks of a queue are entries of three logs. A task `LiesAt` an entry that carries its identifier
and is not settled by the group that reads the log; dead letters are read by no group. Or the task
is resolved, and lies on the list of these.

Results:

* `existsUnique_move`, `existsUnique_add`: a task that moves, or is new, is still at one place;
* `liesAt_publish`, `liesAt_settle`, `liesAt_resolve`: a new entry is a place more, settling takes a
  place away, resolving adds one.
-/

namespace TaskQueue.Ledger

open Broker

/-- A queue, and the groups that its workers and its promoters share. -/
structure Setup where
  queue : String
  workers : String
  promoters : String

/-- The logs of a queue. -/
inductive Lane where
  | active
  | delayed
  | deadLetter
  deriving DecidableEq

namespace Setup

/-- The topics of the queue. -/
def topics (q : Setup) : Topics := .ofQueue q.queue

/-- The topic of a log. -/
def topic (q : Setup) : Lane → String
  | .active => q.topics.active
  | .delayed => q.topics.delayed
  | .deadLetter => q.topics.deadLetter

/-- The group that reads a log. -/
def group? (q : Setup) : Lane → Option String
  | .active => some q.workers
  | .delayed => some q.promoters
  | .deadLetter => none

/-- The logs of a queue are different ones. -/
theorem topic_injective (q : Setup) {lane lane' : Lane} (h : q.topic lane = q.topic lane') :
    lane = lane' := by
  have key (s t : String) (hst : s.length ≠ t.length) : q.queue ++ s ≠ q.queue ++ t := by
    intro he
    have := congrArg String.length he
    rw [String.length_append, String.length_append] at this
    omega
  have key' (s : String) (hs : s.length ≠ 0) : q.queue ≠ q.queue ++ s := by
    intro he
    have := congrArg String.length he
    rw [String.length_append] at this
    omega
  cases lane <;> cases lane' <;> first
    | rfl
    | exact absurd h (key' _ (by decide))
    | exact absurd h.symm (key' _ (by decide))
    | exact absurd h (key _ _ (by decide))

theorem delayed_ne_active (q : Setup) : q.topics.delayed ≠ q.topics.active :=
  fun h => nomatch q.topic_injective (show q.topic .delayed = q.topic .active from h)

theorem deadLetter_ne_active (q : Setup) : q.topics.deadLetter ≠ q.topics.active :=
  fun h => nomatch q.topic_injective (show q.topic .deadLetter = q.topic .active from h)

theorem deadLetter_ne_delayed (q : Setup) : q.topics.deadLetter ≠ q.topics.delayed :=
  fun h => nomatch q.topic_injective (show q.topic .deadLetter = q.topic .delayed from h)

/-- A change of one group of one log touches no other group. -/
theorem changed_cases (q : Setup) {P : Group → Prop} {lane lane' : Lane} {g g' : String}
    {x y z : Group} (h : x = if q.topic lane = q.topic lane' ∧ g = g' then y else z)
    (changed : lane = lane' → g = g' → P y) (other : P z) : P x := by
  by_cases he : q.topic lane = q.topic lane' ∧ g = g'
  · rw [h, if_pos he]
    exact changed (q.topic_injective he.1) he.2
  · rw [h, if_neg he]
    exact other

end Setup

/-- A broker, the tasks that were accepted, and those that were resolved in the order in which they
were. -/
structure Books where
  broker : State
  accepted : List String
  resolved : List String

/-- Where a task may be. -/
inductive Place where
  | entry (lane : Lane) (i : Nat)
  | resolved (i : Nat)
  deriving DecidableEq

/-- The entry is not settled by the group that reads the log, if there is one. -/
def Live (q : Setup) (b : State) (lane : Lane) (i : Nat) : Prop :=
  ∀ g, q.group? lane = some g → (b.groupOf (q.topic lane) g).Unsettled i

/-- An entry of a log carries an identifier. -/
def Names (q : Setup) (b : State) (lane : Lane) (i : Nat) (id : String) : Prop :=
  ∃ m, (b.messages (q.topic lane))[i]? = some m ∧ m.header? Header.correlationId = some id

/-- **A task is at a place.** -/
def LiesAt (q : Setup) (l : Books) (id : String) : Place → Prop
  | .entry lane i => Names q l.broker lane i id ∧ Live q l.broker lane i
  | .resolved i => l.resolved[i]? = some id

/-- The delivery `d` was handed out from a log and is neither settled nor given back. -/
structure Out (q : Setup) (b : State) (lane : Lane) (d : Delivery) (i : Nat) : Prop where
  position : d.position = State.position (q.topic lane) i
  read : (b.messages (q.topic lane))[i]? = some d.message
  pending : ∀ g, q.group? lane = some g → (b.groupOf (q.topic lane) g).pending.contains i = true
  kept : ∀ g, q.group? lane = some g → i ∉ (b.groupOf (q.topic lane) g).redeliver

/-! ## Moving a task -/

section

variable {L L' : String → Place → Prop} {id : String} {src : Place}

/-- **A task that moves is still at one place**, and no other task has moved. -/
theorem existsUnique_move (dst : Place) (hsrc : L id src) (alone : ∀ x, L x src → x = id)
    (move : ∀ x p, L' x p ↔ (L x p ∧ p ≠ src) ∨ (x = id ∧ p = dst)) {x : String}
    (h : ∃! p, L x p) : ∃! p, L' x p := by
  obtain ⟨p, hp, hu⟩ := h
  by_cases hx : x = id
  · subst hx
    refine ⟨dst, (move x dst).mpr (Or.inr ⟨rfl, rfl⟩), ?_⟩
    intro p' hp'
    rcases (move x p').mp hp' with ⟨h, hne⟩ | ⟨-, h⟩
    · exact absurd ((hu p' h).trans (hu src hsrc).symm) hne
    · exact h
  · refine ⟨p, (move x p).mpr (Or.inl ⟨hp, ?_⟩), ?_⟩
    · rintro rfl
      exact hx (alone x hp)
    · intro p' hp'
      rcases (move x p').mp hp' with ⟨h, -⟩ | ⟨h, -⟩
      · exact hu p' h
      · exact absurd h hx

/-- **A new task is at one place**, and no other task has moved. -/
theorem existsUnique_add (dst : Place) (add : ∀ x p, L' x p ↔ L x p ∨ (x = id ∧ p = dst))
    (new : ∀ p, ¬ L id p) {x : String} (h : x = id ∨ ∃! p, L x p) : ∃! p, L' x p := by
  by_cases hx : x = id
  · subst hx
    refine ⟨dst, (add x dst).mpr (Or.inr ⟨rfl, rfl⟩), ?_⟩
    intro p' hp'
    rcases (add x p').mp hp' with h | ⟨-, h⟩
    · exact absurd h (new p')
    · exact h
  · obtain ⟨p, hp, hu⟩ := h.resolve_left hx
    refine ⟨p, (add x p).mpr (Or.inl hp), ?_⟩
    intro p' hp'
    rcases (add x p').mp hp' with h | ⟨h, -⟩
    · exact hu p' h
    · exact absurd h hx

end

/-! ## Places after a change of the broker -/

variable {q : Setup} {l : Books} {b b' : State} {lane lane' : Lane} {i j : Nat} {id g : String}
  {d : Delivery} {m : Message}

/-- An entry carries one identifier. -/
theorem Names.unique (h : Names q b lane i id) {id' : String} (h' : Names q b lane i id') :
    id' = id := by
  obtain ⟨m, hm, hid⟩ := h
  obtain ⟨m', hm', hid'⟩ := h'
  rw [hm] at hm'
  obtain rfl := Option.some.inj hm'
  rw [hid] at hid'
  exact (Option.some.inj hid').symm

theorem names_congr (h : ∀ t, b'.messages t = b.messages t) :
    Names q b' lane i id ↔ Names q b lane i id := by
  unfold Names
  rw [h]

/-- A published message is one more entry. -/
theorem names_publish :
    Names q (b.publish (q.topic lane) m) lane' i id ↔ Names q b lane' i id ∨
      (m.header? Header.correlationId = some id ∧ lane' = lane ∧
        i = (b.messages (q.topic lane)).length) := by
  unfold Names
  by_cases hl : lane' = lane
  · subst hl
    simp only [State.messages_publish_self, true_and]
    constructor
    · rintro ⟨m', hm', hid⟩
      rcases Nat.lt_trichotomy i (b.messages (q.topic lane')).length with hi | hi | hi
      · rw [List.getElem?_append_left hi] at hm'
        exact Or.inl ⟨m', hm', hid⟩
      · subst hi
        rw [List.getElem?_concat_length] at hm'
        obtain rfl := Option.some.inj hm'
        exact Or.inr ⟨hid, rfl⟩
      · rw [List.getElem?_eq_none (by rw [List.length_append, List.length_singleton]; omega)] at hm'
        cases hm'
    · rintro (⟨m', hm', hid⟩ | ⟨hid, rfl⟩)
      · obtain ⟨hi, -⟩ := List.getElem?_eq_some_iff.mp hm'
        exact ⟨m', by rw [List.getElem?_append_left hi]; exact hm', hid⟩
      · exact ⟨m, List.getElem?_concat_length, hid⟩
  · rw [State.messages_publish_of_ne fun h => hl (q.topic_injective h)]
    simp only [hl, false_and, and_false, or_false]

theorem live_congr (h : ∀ g, q.group? lane = some g →
    ((b'.groupOf (q.topic lane) g).Unsettled i ↔ (b.groupOf (q.topic lane) g).Unsettled i)) :
    Live q b' lane i ↔ Live q b lane i := by
  constructor
  · intro hl g hg
    exact (h g hg).mp (hl g hg)
  · intro hl g hg
    exact (h g hg).mpr (hl g hg)

theorem live_publish {t : String} : Live q (b.publish t m) lane i ↔ Live q b lane i :=
  live_congr fun g _ => by rw [State.groupOf_publish]

/-- Settling a pending entry takes its life, and that of no other. -/
theorem live_settle (hg : q.group? lane = some g)
    (hs : (b.groupOf (q.topic lane) g).Sound (b.messages (q.topic lane)).length)
    (hi : (b.groupOf (q.topic lane) g).pending.contains i = true) :
    Live q (b.changeGroup (q.topic lane) g (·.settle i)) lane' j ↔
      Live q b lane' j ∧ ¬ (lane' = lane ∧ j = i) := by
  by_cases hl : lane' = lane
  · subst hl
    unfold Live
    simp only [hg, Option.some.injEq, forall_eq', State.groupOf_settle, if_true, true_and]
    exact Group.unsettled_settle hs hi
  · simp only [hl, false_and, not_false_eq_true, and_true]
    refine live_congr fun g' _ => ?_
    rw [State.groupOf_settle, if_neg fun h => hl (q.topic_injective h.1)]

/-- **A published message is one more place** of its task. -/
theorem liesAt_publish (hs : ∀ g, q.group? lane = some g →
      (l.broker.groupOf (q.topic lane) g).Sound (l.broker.messages (q.topic lane)).length)
    (id' : String) (p : Place) (hm : m.header? Header.correlationId = some id) :
    LiesAt q { l with broker := l.broker.publish (q.topic lane) m } id' p ↔ LiesAt q l id' p ∨
      (id' = id ∧ p = .entry lane (l.broker.messages (q.topic lane)).length) := by
  cases p with
  | resolved k => simp only [LiesAt, reduceCtorEq, and_false, or_false]
  | entry lane' k =>
    simp only [LiesAt, names_publish, live_publish, Place.entry.injEq]
    constructor
    · rintro ⟨h | ⟨hid, rfl, rfl⟩, hl⟩
      · exact Or.inl ⟨h, hl⟩
      · rw [hm] at hid
        exact Or.inr ⟨(Option.some.inj hid).symm, rfl, rfl⟩
    · rintro (⟨h, hl⟩ | ⟨rfl, rfl, rfl⟩)
      · exact ⟨Or.inl h, hl⟩
      · exact ⟨Or.inr ⟨hm, rfl, rfl⟩, fun g hg => (hs g hg).unsettled_new⟩

/-- **Settling a pending entry takes one place away.** -/
theorem liesAt_settle (hg : q.group? lane = some g)
    (hs : (l.broker.groupOf (q.topic lane) g).Sound (l.broker.messages (q.topic lane)).length)
    (hi : (l.broker.groupOf (q.topic lane) g).pending.contains i = true) (id' : String)
    (p : Place) :
    LiesAt q { l with broker := l.broker.changeGroup (q.topic lane) g (·.settle i) } id' p ↔
      LiesAt q l id' p ∧ p ≠ .entry lane i := by
  cases p with
  | resolved k => simp only [LiesAt, ne_eq, reduceCtorEq, not_false_eq_true, and_true]
  | entry lane' k =>
    simp only [LiesAt, live_settle hg hs hi,
      names_congr fun t => State.messages_changeGroup _ _ _ _ t,
      ne_eq, Place.entry.injEq, and_assoc]

/-- Resolving a task adds one place. -/
theorem liesAt_resolve (l : Books) (id id' : String) (p : Place) :
    LiesAt q { l with resolved := l.resolved ++ [id] } id' p ↔ LiesAt q l id' p ∨
      (id' = id ∧ p = .resolved l.resolved.length) := by
  cases p with
  | entry lane k => simp only [LiesAt, reduceCtorEq, and_false, or_false]
  | resolved k =>
    simp only [LiesAt, Place.resolved.injEq]
    rcases Nat.lt_trichotomy k l.resolved.length with hk | hk | hk
    · rw [List.getElem?_append_left hk]
      have : k ≠ l.resolved.length := by omega
      simp only [this, and_false, or_false]
    · subst hk
      rw [List.getElem?_concat_length, List.getElem?_eq_none (Nat.le_refl _)]
      simp only [Option.some.injEq, reduceCtorEq, and_true, false_or]
      exact eq_comm
    · have hne : k ≠ l.resolved.length := by omega
      rw [List.getElem?_eq_none (by rw [List.length_append, List.length_singleton]; omega),
        List.getElem?_eq_none (by omega)]
      simp only [hne, reduceCtorEq, and_false, or_false]

/-- Where tasks are depends on the logs and on what is unsettled. -/
theorem liesAt_congr (hm : ∀ t, b'.messages t = l.broker.messages t)
    (hu : ∀ lane g k, q.group? lane = some g →
      ((b'.groupOf (q.topic lane) g).Unsettled k ↔
        (l.broker.groupOf (q.topic lane) g).Unsettled k)) (id' : String) (p : Place) :
    LiesAt q { l with broker := b' } id' p ↔ LiesAt q l id' p := by
  cases p with
  | resolved k => exact Iff.rfl
  | entry lane k =>
    simp only [LiesAt, names_congr hm, live_congr fun g hg => hu lane g k hg]

end TaskQueue.Ledger
