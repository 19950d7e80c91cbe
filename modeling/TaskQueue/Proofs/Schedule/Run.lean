import TaskQueue.Proofs.Schedule.Table
import TaskQueue.Proofs.Time.Minute

/-!
# Runs of a scheduler

A run is the list of what has happened, the latest event first. Enqueues that a tick has started
come to an end in any order and at any later time, well or badly. No tick comes at an instant before
that of an earlier tick.

Results:

* `possible_sound`: in every possible run the table is sound and no enqueue belongs to an instance
  that is still to be made;
* `next_turn`: what one event does to one instance and to its enqueues under way.
-/

namespace TaskQueue.Schedule.Run

open Time

/-- An enqueue: the instance that started it, and when. -/
structure Enqueue where
  key : Key
  start : Instant
  deriving DecidableEq

/-- What can happen to a scheduler. -/
inductive Event where
  | added (id task : String) (schedule : Cron.Expression) (p : Payload) (now : Instant)
  | removed (id : String)
  | toggled (id : String) (enabled : Bool)
  | limited (id : String) (n : Nat)
  | ticked (now : Instant)
  | completed (e : Enqueue) (succeeded : Bool)

/-- When the enqueues of an instance were started. -/
def startsOf (k : Key) : List Enqueue → List Instant
  | [] => []
  | q :: qs => if q.key = k then q.start :: startsOf k qs else startsOf k qs

/-- The table, and the enqueues that were started and have not come to an end. -/
structure State where
  table : Table
  underWay : List Enqueue

namespace State

/-- An instance. -/
def job? (s : State) (k : Key) : Option Job := s.table.instances.get? k

/-- The starts of an instance's enqueues that are under way. -/
def startsOf (s : State) (k : Key) : List Instant := Run.startsOf k s.underWay

/-- The table after a request, which is the old one when the request is refused. -/
def answered (s : State) (r : Except Failure Table) : State :=
  { s with table := r.toOption.getD s.table }

/-- The state after an event. -/
def next (s : State) : Event → State
  | .added id task c p now => s.answered (s.table.add id task c p now)
  | .removed id => s.answered (s.table.remove id)
  | .toggled id enabled => s.answered (s.table.setEnabled id enabled)
  | .limited id n => s.answered (s.table.setMaxConcurrent id n)
  | .ticked now =>
    ⟨(s.table.tick now).2, s.underWay ++ (s.table.tick now).1.map fun k => ⟨k, now⟩⟩
  | .completed e succeeded =>
    ⟨(s.table.complete e.key e.start succeeded).1, s.underWay.erase e⟩

end State

/-! ## Histories -/

/-- What has happened, the latest event first. -/
abbrev History := List Event

/-- The state after a history. -/
def after : History → State
  | [] => ⟨∅, []⟩
  | e :: h => (after h).next e

/-- The instant of a tick. -/
def Event.tick? : Event → Option Instant
  | ticked now => some now
  | _ => none

/-- An event can come next: a tick is not before an earlier one, and only an enqueue that is under
way comes to an end. -/
def Allowed (h : History) : Event → Prop
  | .ticked now => ∀ u ∈ h.filterMap Event.tick?, u ≤ now
  | .completed e _ => e ∈ (after h).underWay
  | _ => True

/-- **A run of a scheduler.** -/
def Possible : History → Prop
  | [] => True
  | e :: h => Possible h ∧ Allowed h e

instance (h : History) : (e : Event) → Decidable (Allowed h e)
  | .ticked now => inferInstanceAs (Decidable (∀ u ∈ h.filterMap Event.tick?, u ≤ now))
  | .completed e _ => inferInstanceAs (Decidable (e ∈ (after h).underWay))
  | .added .. | .removed _ | .toggled .. | .limited .. => .isTrue trivial

instance decidablePossible : (h : History) → Decidable (Possible h)
  | [] => .isTrue trivial
  | e :: h =>
    have := decidablePossible h
    inferInstanceAs (Decidable (Possible h ∧ Allowed h e))

/-- When the enqueues of an instance that have succeeded were started, the latest to succeed
first. -/
def successes (k : Key) : History → List Instant
  | [] => []
  | .completed e true :: h => if e.key = k then e.start :: successes k h else successes k h
  | _ :: h => successes k h

/-- Instance `k` was made by a registration at `a` with the schedule `c`. -/
inductive Made (k : Key) (c : Cron.Expression) (a : Instant) : History → Prop where
  | now {h : History} {id task : String} {p : Payload} {t : Table}
      (added : (after h).table.add id task c p a = .ok t) (key : k = (after h).table.nextKey) :
      Made k c a (.added id task c p a :: h)
  | before {h : History} (e : Event) (made : Made k c a h) : Made k c a (e :: h)

/-- Something holds at every point of a run. -/
def Throughout (P : History → Prop) : History → Prop
  | [] => P []
  | e :: h => P (e :: h) ∧ Throughout P h

instance decidableThroughout (P : History → Prop) [DecidablePred P] :
    (h : History) → Decidable (Throughout P h)
  | [] => inferInstanceAs (Decidable (P []))
  | e :: h =>
    have := decidableThroughout P h
    inferInstanceAs (Decidable (P (e :: h) ∧ Throughout P h))

theorem Throughout.last {P : History → Prop} {h : History} (hp : Throughout P h) : P h := by
  cases h with
  | nil => exact hp
  | cons e h => exact hp.1

variable {s s' : State} {h : History} {e : Event} {k : Key} {c : Cron.Expression} {a t : Instant}
  {j : Job}

/-! ## Soundness -/

/-- **No enqueue belongs to an instance that is still to be made.** -/
structure Sound (h : History) : Prop where
  table : (after h).table.Sound
  underWay : ∀ e ∈ (after h).underWay, e.key < (after h).table.nextKey
  successes : ∀ k, (after h).table.nextKey ≤ k → successes k h = []

theorem sound_answered {r : Except Failure Table} (hs : s.table.Sound)
    (hr : ∀ t, r = .ok t → t.Sound) : (s.answered r).table.Sound := by
  cases r with
  | error e => exact hs
  | ok t => exact hr t rfl

/-- An event keeps the table sound. -/
theorem sound_next (hs : s.table.Sound) (e : Event) : (s.next e).table.Sound := by
  cases e with
  | added id task c p now => exact sound_answered hs fun t ht => Table.sound_add hs ht
  | removed id => exact sound_answered hs fun t ht => Table.sound_remove hs ht
  | toggled id enabled =>
    refine sound_answered hs fun t ht => ?_
    obtain ⟨k, rfl⟩ := Table.setEnabled_ok ht
    exact Table.sound_change hs k _
  | limited id n =>
    refine sound_answered hs fun t ht => ?_
    obtain ⟨-, k, rfl⟩ := Table.setMaxConcurrent_ok ht
    exact Table.sound_change hs k _
  | ticked now => exact Table.sound_tick hs now
  | completed e succeeded => exact Table.sound_complete hs e.key e.start succeeded

theorem answered_nextKey {r : Except Failure Table}
    (hr : ∀ t, r = .ok t → s.table.nextKey ≤ t.nextKey) :
    s.table.nextKey ≤ (s.answered r).table.nextKey := by
  cases r with
  | error e => exact Nat.le_refl _
  | ok t => exact hr t rfl

/-- Keys are never handed out again. -/
theorem nextKey_le_next (s : State) (e : Event) : s.table.nextKey ≤ (s.next e).table.nextKey := by
  cases e with
  | added id task c p now =>
    refine answered_nextKey fun t ht => ?_
    obtain ⟨j, -, rfl⟩ := Table.add_ok ht
    exact Nat.le_succ _
  | removed id =>
    refine answered_nextKey fun t ht => ?_
    obtain rfl := Table.remove_ok ht
    exact Nat.le_refl _
  | toggled id enabled =>
    refine answered_nextKey fun t ht => ?_
    obtain ⟨k, rfl⟩ := Table.setEnabled_ok ht
    exact Nat.le_refl _
  | limited id n =>
    refine answered_nextKey fun t ht => ?_
    obtain ⟨-, k, rfl⟩ := Table.setMaxConcurrent_ok ht
    exact Nat.le_refl _
  | ticked now => exact Nat.le_of_eq (Table.nextKey_tick _ _).symm
  | completed e succeeded => exact Nat.le_of_eq (Table.nextKey_complete _ _ _ _).symm

/-- Where an enqueue under way comes from: it was under way before, or a tick has started it. -/
theorem mem_underWay_next {q : Enqueue} (hq : q ∈ (s.next e).underWay) :
    q ∈ s.underWay ∨ ∃ now, e = .ticked now ∧ q.key ∈ s.table.firing now ∧ q.start = now := by
  cases e with
  | added id task c p now => exact .inl hq
  | removed id => exact .inl hq
  | toggled id enabled => exact .inl hq
  | limited id n => exact .inl hq
  | ticked now =>
    rcases List.mem_append.mp hq with hq | hq
    · exact .inl hq
    · obtain ⟨k, hk, rfl⟩ := List.mem_map.mp hq
      exact .inr ⟨now, rfl, hk, rfl⟩
  | completed e succeeded => exact .inl (List.mem_of_mem_erase hq)

theorem successes_cons_of_ne (hne : ∀ t, e ≠ .completed ⟨k, t⟩ true) :
    successes k (e :: h) = successes k h := by
  cases e with
  | completed q succeeded =>
    cases succeeded with
    | true =>
      have hk : q.key ≠ k := by
        rintro rfl
        exact hne q.start rfl
      exact if_neg hk
    | false => rfl
  | _ => rfl

@[simp] theorem successes_cons_completed (k : Key) (t : Instant) (h : History) :
    successes k (.completed ⟨k, t⟩ true :: h) = t :: successes k h :=
  if_pos rfl

/-- **Every possible run is sound.** -/
theorem possible_sound (hp : Possible h) : Sound h := by
  induction h with
  | nil => exact ⟨Table.sound_empty, fun _ hq => (List.not_mem_nil hq).elim, fun _ _ => rfl⟩
  | cons e h ih =>
    obtain ⟨hp, ha⟩ := hp
    have hs := ih hp
    refine ⟨sound_next hs.table e, fun q hq => ?_, fun k hk => ?_⟩
    · refine Nat.lt_of_lt_of_le ?_ (nextKey_le_next (after h) e)
      rcases mem_underWay_next hq with hq | ⟨now, -, hfire, -⟩
      · exact hs.underWay q hq
      · exact Table.firing_lt hs.table hfire
    · have hk' := Nat.le_trans (nextKey_le_next (after h) e) hk
      rw [successes_cons_of_ne, hs.successes k hk']
      rintro t rfl
      exact Nat.not_le_of_lt (hs.underWay _ ha) hk'

/-! ## One instance -/

/-- **What one event does to an instance**, its enqueues under way included. -/
inductive Turn (k : Key) (s : State) (j : Job) : Event → State → Job → Prop where
  | begun {s' : State} (now : Instant) (fires : j.fires now = true)
      (starts : s'.startsOf k = s.startsOf k ++ [now]) : Turn k s j (.ticked now) s' j.begin
  | ended {s' : State} (t : Instant) (succeeded : Bool) (underWay : t ∈ s.startsOf k)
      (starts : s'.startsOf k = (s.startsOf k).erase t) :
      Turn k s j (.completed ⟨k, t⟩ succeeded) s' (Table.finished t succeeded j)
  | kept {e : Event} {s' : State} {j' : Job} (other : ∀ t, e ≠ .completed ⟨k, t⟩ true)
      (schedule : j'.schedule = j.schedule) (lastRun : j'.lastRun = j.lastRun)
      (nextRun : j'.nextRun = j.nextRun) (inFlight : j'.inFlight = j.inFlight)
      (limit : 0 < j.maxConcurrent → 0 < j'.maxConcurrent)
      (starts : s'.startsOf k = s.startsOf k) : Turn k s j e s' j'

@[simp] theorem startsOf_cons_self (k : Key) (t : Instant) (qs : List Enqueue) :
    startsOf k (⟨k, t⟩ :: qs) = t :: startsOf k qs :=
  if_pos rfl

theorem startsOf_cons_of_ne {q : Enqueue} (hq : q.key ≠ k) (qs : List Enqueue) :
    startsOf k (q :: qs) = startsOf k qs :=
  if_neg hq

theorem startsOf_append (k : Key) (qs qs' : List Enqueue) :
    startsOf k (qs ++ qs') = startsOf k qs ++ startsOf k qs' := by
  induction qs with
  | nil => rfl
  | cons q qs ih =>
    obtain ⟨k', t⟩ := q
    by_cases hk : k' = k
    · subst hk
      rw [List.cons_append, startsOf_cons_self, startsOf_cons_self, ih, List.cons_append]
    · rw [List.cons_append, startsOf_cons_of_ne hk, startsOf_cons_of_ne hk, ih]

theorem mem_startsOf {qs : List Enqueue} : t ∈ startsOf k qs ↔ ⟨k, t⟩ ∈ qs := by
  induction qs with
  | nil => exact ⟨nofun, nofun⟩
  | cons q qs ih =>
    obtain ⟨k', t'⟩ := q
    by_cases hk : k' = k
    · subst hk
      simp only [startsOf_cons_self, List.mem_cons, ih, Enqueue.mk.injEq, true_and]
    · rw [startsOf_cons_of_ne hk, List.mem_cons, ih]
      simp only [Enqueue.mk.injEq, Ne.symm hk, false_and, false_or]

/-- What a tick starts of one instance. -/
theorem startsOf_started (ks : List Key) (hks : ks.Nodup) (k : Key) (now : Instant) :
    startsOf k (ks.map fun k => ⟨k, now⟩) = if k ∈ ks then [now] else [] := by
  induction ks with
  | nil => rfl
  | cons k₀ ks ih =>
    obtain ⟨hnot, hks⟩ := List.nodup_cons.mp hks
    rw [List.map_cons]
    by_cases hk : k₀ = k
    · subst hk
      rw [startsOf_cons_self, ih hks, if_neg hnot, if_pos List.mem_cons_self]
    · rw [startsOf_cons_of_ne hk, ih hks]
      simp only [List.mem_cons, Ne.symm hk, false_or]

/-- An enqueue that comes to an end is taken out, once. -/
theorem startsOf_erase (qs : List Enqueue) (k : Key) (t : Instant) :
    startsOf k (qs.erase ⟨k, t⟩) = (startsOf k qs).erase t := by
  induction qs with
  | nil => rfl
  | cons q qs ih =>
    obtain ⟨k', t'⟩ := q
    by_cases hk : k' = k
    · subst hk
      rw [startsOf_cons_self]
      by_cases ht : t' = t
      · subst ht
        rw [List.erase_cons_head, List.erase_cons_head]
      · rw [List.erase_cons_tail (by simpa using ht), List.erase_cons_tail (by simpa using ht),
          startsOf_cons_self, ih]
    · rw [List.erase_cons_tail (by simp [hk]), startsOf_cons_of_ne hk, startsOf_cons_of_ne hk, ih]

theorem startsOf_erase_of_ne {q : Enqueue} (hq : q.key ≠ k) (qs : List Enqueue) :
    startsOf k (qs.erase q) = startsOf k qs := by
  induction qs with
  | nil => rfl
  | cons q' qs ih =>
    by_cases he : q' = q
    · subst he
      rw [List.erase_cons_head, startsOf_cons_of_ne hq]
    · rw [List.erase_cons_tail (by simpa using he)]
      unfold startsOf
      rw [ih]

/-- A request changes at most the switches of an instance. -/
theorem turn_answered {r : Except Failure Table} (hj : s.job? k = some j)
    (other : ∀ t, e ≠ .completed ⟨k, t⟩ true)
    (hr : ∀ t, r = .ok t → ∃ b n, (0 < j.maxConcurrent → 0 < n) ∧
      t.instances.get? k = some { j with enabled := b, maxConcurrent := n }) :
    ∃ j', (s.answered r).job? k = some j' ∧ Turn k s j e (s.answered r) j' := by
  cases r with
  | error f => exact ⟨j, hj, .kept other rfl rfl rfl rfl id rfl⟩
  | ok t =>
    obtain ⟨b, n, limit, ht⟩ := hr t rfl
    exact ⟨_, ht, .kept other rfl rfl rfl rfl limit rfl⟩

/-- So does a change of one instance that touches only its switches. -/
theorem get?_switched {f : Job → Job} {tbl : Table} (hj : tbl.instances.get? k = some j)
    (hf : ∃ b n, (0 < j.maxConcurrent → 0 < n) ∧ f j = { j with enabled := b, maxConcurrent := n })
    (k' : Key) : ∃ b n, (0 < j.maxConcurrent → 0 < n) ∧
      (tbl.change k' f).instances.get? k = some { j with enabled := b, maxConcurrent := n } := by
  rw [Table.get?_change]
  by_cases hk : k = k'
  · subst hk
    obtain ⟨b, n, limit, hf⟩ := hf
    exact ⟨b, n, limit, by rw [if_pos rfl, hj, Option.map_some, hf]⟩
  · rw [if_neg hk]
    exact ⟨j.enabled, j.maxConcurrent, id, hj⟩

/-- A tick starts at most one enqueue of an instance. -/
theorem turn_ticked (hs : Sound h) (hj : (after h).job? k = some j) (now : Instant) :
    ∃ j', (after (.ticked now :: h)).job? k = some j' ∧
      Turn k (after h) j (.ticked now) (after (.ticked now :: h)) j' := by
  have hget := Table.get?_tick hs.table now k
  have hstarts : (after (.ticked now :: h)).startsOf k =
      (after h).startsOf k ++ if k ∈ (after h).table.firing now then [now] else [] := by
    rw [← startsOf_started _ (Table.nodup_firing hs.table now)]
    exact startsOf_append k _ _
  by_cases hk : k ∈ (after h).table.firing now
  · obtain ⟨j', hj', hfires⟩ := Table.mem_firing hk
    obtain rfl : j' = j := Option.some.inj (hj'.symm.trans hj)
    rw [if_pos hk, hj'] at hget
    rw [if_pos hk] at hstarts
    exact ⟨j'.begin, hget, .begun now hfires hstarts⟩
  · rw [if_neg hk] at hget hstarts
    rw [List.append_nil] at hstarts
    exact ⟨j, hget.trans hj, .kept (fun _ he => nomatch he) rfl rfl rfl rfl id hstarts⟩

/-- The end of an enqueue changes the instance that it belongs to. -/
theorem turn_completed {q : Enqueue} {succeeded : Bool} (ha : Allowed h (.completed q succeeded))
    (hj : (after h).job? k = some j) :
    ∃ j', (after (.completed q succeeded :: h)).job? k = some j' ∧
      Turn k (after h) j (.completed q succeeded) (after (.completed q succeeded :: h)) j' := by
  have hinst : (after h).table.instances.get? k = some j := hj
  have hget := Table.get?_complete (after h).table q.key k q.start succeeded
  by_cases hk : k = q.key
  · subst hk
    rw [if_pos rfl, hinst] at hget
    exact ⟨_, hget, .ended q.start succeeded (mem_startsOf.mpr ha) (startsOf_erase _ _ _)⟩
  · rw [if_neg hk] at hget
    refine ⟨j, hget.trans hj, .kept ?_ rfl rfl rfl rfl id ?_⟩
    · rintro t he
      injection he with he
      exact hk (congrArg Enqueue.key he).symm
    · exact startsOf_erase_of_ne (Ne.symm hk) _

/-- **Every event is a turn** of every instance that is there. -/
theorem next_turn (hs : Sound h) (ha : Allowed h e) (hj : (after h).job? k = some j) :
    ∃ j', (after (e :: h)).job? k = some j' ∧ Turn k (after h) j e (after (e :: h)) j' := by
  have hinst : (after h).table.instances.get? k = some j := hj
  cases e with
  | added id task c p now =>
    refine turn_answered hj (fun _ he => nomatch he) fun t ht => ?_
    exact ⟨j.enabled, j.maxConcurrent, fun h => h, Table.get?_add hs.table ht hj⟩
  | removed id =>
    refine turn_answered hj (fun _ he => nomatch he) fun t ht => ?_
    obtain rfl := Table.remove_ok ht
    exact ⟨j.enabled, j.maxConcurrent, fun h => h, hinst⟩
  | toggled id enabled =>
    refine turn_answered hj (fun _ he => nomatch he) fun t ht => ?_
    obtain ⟨k', rfl⟩ := Table.setEnabled_ok ht
    exact get?_switched hinst ⟨enabled, j.maxConcurrent, fun h => h, rfl⟩ k'
  | limited id n =>
    refine turn_answered hj (fun _ he => nomatch he) fun t ht => ?_
    obtain ⟨hn, k', rfl⟩ := Table.setMaxConcurrent_ok ht
    exact get?_switched hinst ⟨j.enabled, n, fun _ => hn, rfl⟩ k'
  | ticked now => exact turn_ticked hs hj now
  | completed q succeeded => exact turn_completed ha hj

/-! ## A morning, for runs that are given in full -/

/-- Up to two hours after nine o'clock on 1 January 2026, in seconds. -/
def afterNine (s : Nat) : Instant :=
  .atSecond (1767258000 + (s % 7200 : Nat)) (by unfold minSecond maxSecond; omega)

end TaskQueue.Schedule.Run
