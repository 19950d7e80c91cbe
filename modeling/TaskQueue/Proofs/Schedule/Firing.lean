import TaskQueue.Proofs.Schedule.Cause
import TaskQueue.Proofs.Schedule.Order

/-!
# When a job fires that has one enqueue at a time

A job whose limit stays at one fires at the first tick that finds it enabled and idle when its next
run has come. The next run is reckoned from its last success, or from its registration. Only a
success moves it on, to a later slot; a failed enqueue, a job that is switched off and on again, and
ticks that come too early or while an enqueue is under way leave the slot as it is.

Results:

* `registered_until_removed`: a job stays registered until its identifier is removed;
* `mem_fired_iff`: **the firing rule**;
* `successive_of_single`: no slot is served twice;
* `fires_by_rule`: all of these, as `FiringRule` says.
-/

namespace TaskQueue.Schedule.Run

open Time

variable {h : History} {e : Event} {k : Key} {c : Cron.Expression} {a t u n : Instant} {j j' : Job}

/-! ## Registered instances -/

/-- An instance is registered under some identifier. -/
def IsRegistered (k : Key) (h : History) : Prop :=
  ∃ id, (after h).table.registered.get? id = some k

/-- An instance stays registered under an identifier unless that is removed. -/
theorem registered_next {id : String} (hid : (after h).table.registered.get? id = some k)
    (he : e ≠ .removed id) : (after (e :: h)).table.registered.get? id = some k := by
  have answered {r : Except Failure Table}
      (hok : ∀ tbl, r = .ok tbl → tbl.registered.get? id = some k) :
      ((after h).answered r).table.registered.get? id = some k := by
    cases r with
    | error f => exact hid
    | ok tbl => exact hok tbl rfl
  cases e with
  | added id' task c p now =>
    refine answered fun tbl htbl => ?_
    obtain ⟨hfree, j, -, rfl⟩ := Table.add_free htbl
    have hne : id ≠ id' := by
      rintro rfl
      rw [hfree] at hid
      cases hid
    rw [Dict.get?_insert, if_neg hne]
    exact hid
  | removed id' =>
    refine answered fun tbl htbl => ?_
    obtain rfl := Table.remove_ok htbl
    have hne : id ≠ id' := fun heq => he (congrArg Event.removed heq.symm)
    rw [Dict.get?_erase, if_neg hne]
    exact hid
  | toggled id' enabled =>
    refine answered fun tbl htbl => ?_
    obtain ⟨k', rfl⟩ := Table.setEnabled_ok htbl
    exact hid
  | limited id' n =>
    refine answered fun tbl htbl => ?_
    obtain ⟨-, k', rfl⟩ := Table.setMaxConcurrent_ok htbl
    exact hid
  | ticked now => exact (congrArg (·.get? id) (Table.registered_tick _ _)).trans hid
  | completed q succeeded =>
    exact (congrArg (·.get? id) (Table.registered_complete _ _ _ _)).trans hid

/-- **A job stays registered until its identifier is removed.** -/
theorem registered_until_removed {es h₀ : History} {id task : String} {p : Payload} {tbl : Table}
    (added : (after h₀).table.add id task c p a = .ok tbl) (hkept : .removed id ∉ es) :
    (after (es ++ .added id task c p a :: h₀)).table.registered.get? id =
      some (after h₀).table.nextKey := by
  induction es with
  | nil =>
    obtain ⟨-, j, -, rfl⟩ := Table.add_free added
    show ((after h₀).answered _).table.registered.get? id = _
    rw [added]
    exact (Dict.get?_insert _ _ _ _).trans (if_pos rfl)
  | cons e es ih =>
    refine registered_next (ih fun hmem => hkept (List.mem_cons_of_mem _ hmem)) ?_
    rintro rfl
    exact hkept List.mem_cons_self

/-! ## The firing rule -/

/-- The instances of which a tick at `t` starts an enqueue. -/
def fired (t : Instant) (h : History) : List Key := ((after h).table.tick t).1

/-- **The firing rule.** A tick starts an enqueue of a job when it is registered and enabled, has
none under way, and its next run has come. -/
theorem mem_fired_iff (hs : Standing k c a h j) (hj : (after h).job? k = some j)
    (h1 : j.maxConcurrent ≤ 1) : k ∈ fired t h ↔
      IsRegistered k h ∧ j.enabled = true ∧ (after h).startsOf k = [] ∧ j.nextRun ≤ t := by
  have hone : j.maxConcurrent = 1 := Nat.le_antisymm h1 hs.limit
  have hidle : j.inFlight < j.maxConcurrent ↔ (after h).startsOf k = [] := by
    rw [hone, hs.inFlight, ← List.length_eq_zero_iff]
    omega
  show k ∈ (after h).table.firing t ↔ _
  rw [Table.mem_firing_iff]
  refine and_congr_right fun _ => ?_
  constructor
  · rintro ⟨j', hj', hfires⟩
    obtain rfl : j = j' := Option.some.inj (hj.symm.trans hj')
    obtain ⟨henabled, hdue, hfree⟩ := Job.fires_iff.mp hfires
    exact ⟨henabled, hidle.mp hfree, hdue⟩
  · rintro ⟨henabled, hnone, hdue⟩
    exact ⟨j, hj, Job.fires_iff.mpr ⟨henabled, hdue, hidle.mpr hnone⟩⟩

/-! ## Slots -/

/-- The slots that were served: the next run of an instance at each of its successes, the latest
first. -/
def served (k : Key) : History → List Instant
  | [] => []
  | .completed e true :: h =>
    if e.key = k then (((after h).job? k).map Job.nextRun).toList ++ served k h else served k h
  | _ :: h => served k h

theorem served_cons_of_ne (hne : ∀ t, e ≠ .completed ⟨k, t⟩ true) :
    served k (e :: h) = served k h := by
  cases e with
  | completed q succeeded =>
    cases succeeded with
    | true =>
      have hk : q.key ≠ k := by
        rintro rfl
        exact hne q.start rfl
      exact if_neg hk
    | false => rfl
  | _ => rfl

theorem served_cons_completed (hj : (after h).job? k = some j) :
    served k (.completed ⟨k, t⟩ true :: h) = j.nextRun :: served k h := by
  show (if k = k then _ else _) = _
  rw [if_pos rfl, hj]
  rfl

/-- Before its registration an instance has served nothing. -/
theorem served_unmade (hp : Possible h) (hk : (after h).table.nextKey ≤ k) : served k h = [] := by
  induction h with
  | nil => rfl
  | cons e h ih =>
    have hk' := Nat.le_trans (nextKey_le_next (after h) e) hk
    rw [served_cons_of_ne, ih hp.1 hk']
    rintro t rfl
    exact Nat.not_le_of_lt ((possible_sound hp.1).underWay _ hp.2) hk'

/-- A registration reckons the first run. -/
theorem first_reckoned (hm : Made k c a h) : ∃ n, c.nextRun a = .ok n := by
  induction hm with
  | now added key =>
    obtain ⟨j, hj, -⟩ := Table.add_ok added
    obtain ⟨n, hn, -⟩ := Job.make_ok hj
    exact ⟨n, hn⟩
  | before e made ih => exact ih

/-- **How successes follow each other** when one enqueue is under way at a time. -/
structure Successive (k : Key) (c : Cron.Expression) (a : Instant) (h : History) : Prop where
  /-- The enqueue of a success was started at or after the run that is reckoned from any success
  before it, and from the registration. -/
  apart : (successes k h ++ [a]).Pairwise fun t' t => ∃ n, c.nextRun t = .ok n ∧ t < n ∧ n ≤ t'
  /-- No slot is served twice. -/
  once : (served k h).Pairwise fun n' n => n < n'
  /-- A slot that was served had come when its enqueue was started. -/
  come : ∀ n ∈ served k h, ∃ t ∈ successes k h, n ≤ t

/-- What is no success changes nothing. -/
theorem Successive.cons_of_ne (hs : Successive k c a h) (hne : ∀ t, e ≠ .completed ⟨k, t⟩ true) :
    Successive k c a (e :: h) := by
  have hsucc := successes_cons_of_ne (h := h) hne
  have hserved := served_cons_of_ne (h := h) hne
  exact ⟨hsucc ▸ hs.apart, hserved ▸ hs.once, hserved ▸ hsucc ▸ hs.come⟩

/-- A success whose enqueue was started when its slot had come, and whose slot lies after what was
reckoned from all successes before it. -/
theorem Successive.cons_completed (hs : Successive k c a h) (hj : (after h).job? k = some j)
    (hdue : j.nextRun ≤ t) (hfirst : ∃ n, c.nextRun a = .ok n ∧ n ≤ t)
    (hnext : ∀ u ∈ successes k h, ∃ n, c.nextRun u = .ok n ∧ n ≤ j.nextRun) :
    Successive k c a (.completed ⟨k, t⟩ true :: h) := by
  refine ⟨?_, ?_, ?_⟩
  · rw [successes_cons_completed, List.cons_append]
    refine List.pairwise_cons.mpr ⟨fun u hmem => ?_, hs.apart⟩
    rcases List.mem_append.mp hmem with hmem | hmem
    · obtain ⟨n, hn, hle⟩ := hnext u hmem
      exact ⟨n, hn, Cron.Expression.lt_nextRun hn, Instant.le_trans hle hdue⟩
    · obtain rfl := List.mem_singleton.mp hmem
      obtain ⟨n, hn, hle⟩ := hfirst
      exact ⟨n, hn, Cron.Expression.lt_nextRun hn, hle⟩
  · rw [served_cons_completed hj]
    refine List.pairwise_cons.mpr ⟨fun s hmem => ?_, hs.once⟩
    -- an earlier slot had come at a success, and the new one is reckoned from there or later
    obtain ⟨u, hu, hle⟩ := hs.come s hmem
    obtain ⟨n, hn, hle'⟩ := hnext u hu
    exact fun hback => Cron.Expression.lt_nextRun hn
      (Instant.le_trans (Instant.le_trans hle' hback) hle)
  · rw [served_cons_completed hj, successes_cons_completed]
    intro n hmem
    rcases List.mem_cons.mp hmem with rfl | hmem
    · exact ⟨t, List.mem_cons_self, hdue⟩
    · obtain ⟨u, hu, hle⟩ := hs.come n hmem
      exact ⟨u, List.mem_cons_of_mem _ hu, hle⟩

/-- **No slot is served twice.** -/
theorem successive_of_single (hp : Possible h) (hm : Made k c a h) (h1 : Throughout (Single k) h)
    (hu : ∀ t, .ticked t ∈ h → Usual t) : Successive k c a h := by
  induction hm with
  | @now h id task p tbl added key =>
    have hk := Nat.le_of_eq key.symm
    have hnone : successes k (.added id task c p a :: h) = [] :=
      (possible_sound hp.1).successes k hk
    have hne : ∀ t, Event.added id task c p a ≠ .completed ⟨k, t⟩ true := fun _ he => nomatch he
    have hserved : served k (.added id task c p a :: h) = [] :=
      (served_cons_of_ne hne).trans (served_unmade hp.1 hk)
    refine ⟨?_, ?_, ?_⟩
    · rw [hnone]
      exact List.pairwise_singleton _ _
    · rw [hserved]
      exact .nil
    · rw [hserved]
      exact fun n hn => (List.not_mem_nil hn).elim
  | @before h e made ih =>
    have husual : ∀ t, .ticked t ∈ h → Usual t := fun t ht => hu t (List.mem_cons_of_mem _ ht)
    have hs := ih hp.1 h1.2 husual
    by_cases he : ∃ t, e = .completed ⟨k, t⟩ true
    · obtain ⟨t, rfl⟩ := he
      obtain ⟨j, hj, hstand⟩ := standing_of_made hp.1 made
      have hunder : t ∈ (after h).startsOf k := mem_startsOf.mpr hp.2
      refine hs.cons_completed hj (due_of_single hp.1 made h1.2 j hj t hunder).1 ?_ fun u hmem => ?_
      · obtain ⟨n, hn⟩ := first_reckoned made
        exact ⟨n, hn, hstand.come n hn t (List.mem_append_left _ hunder)⟩
      · obtain ⟨n, hn⟩ :=
          nextRun_usual c (husual u (hstand.ticked u (List.mem_append_right _ hmem)))
        exact ⟨n, hn, ((neverBack_of_single hp.1 made h1.2).ahead hp.1 made j hj u hmem).2 n hn⟩
    · exact hs.cons_of_ne fun t ht => he ⟨t, ht⟩

/-! ## The result -/

/-- **How a job fires** that has one enqueue at a time. -/
structure FiringRule (k : Key) (c : Cron.Expression) (a : Instant) (h : History) : Prop
    extends Successive k c a h where
  /-- A tick starts an enqueue when the job is registered, enabled and idle and the run has come
  that is reckoned from the last success, or else from the registration. -/
  rule : ∃ j n, (after h).job? k = some j ∧ j.lastRun = (successes k h).head? ∧ j.nextRun = n ∧
    c.nextRun ((successes k h).headD a) = .ok n ∧
    ∀ t, k ∈ fired t h ↔
      IsRegistered k h ∧ j.enabled = true ∧ (after h).startsOf k = [] ∧ n ≤ t
  /-- The job stays registered until its identifier is removed. -/
  registered : ∀ es h₀ id task p tbl, h = es ++ .added id task c p a :: h₀ →
    (after h₀).table.add id task c p a = .ok tbl → (after h₀).table.nextKey = k →
    .removed id ∉ es → IsRegistered k h
  /-- Nothing but a success moves the schedule; in particular a failed enqueue does not. -/
  unmoved : ∀ e, Possible (e :: h) → (∀ t, e ≠ .completed ⟨k, t⟩ true) →
    ∃ j j', (after h).job? k = some j ∧ (after (e :: h)).job? k = some j' ∧
      j'.lastRun = j.lastRun ∧ j'.nextRun = j.nextRun
  /-- A slot that was due at a tick is attempted at any later tick that finds the job registered,
  enabled and idle while no enqueue has succeeded. -/
  attempted : ∀ es h₀ t₀ n, h = es ++ .ticked t₀ :: h₀ →
    c.nextRun ((successes k h₀).headD a) = .ok n → n ≤ t₀ → successes k h = successes k h₀ →
    IsRegistered k h → (after h).startsOf k = [] →
    (∀ j, (after h).job? k = some j → j.enabled = true) →
    ∀ t, Allowed h (.ticked t) → k ∈ fired t h

/-- **The firing rule of a job that has one enqueue at a time**, in every run whose ticks lie in the
usual years. -/
theorem fires_by_rule (hp : Possible h) (hm : Made k c a h) (h1 : Throughout (LimitOne k) h)
    (hu : ∀ t, .ticked t ∈ h → Usual t) : FiringRule k c a h := by
  obtain ⟨j, hj, hs⟩ := standing_of_made hp hm
  have hreckoned := hs.reckoned_from hu
  have hrule (t : Instant) := mem_fired_iff (t := t) hs hj (h1.last j hj)
  have hsingle := single_of_limit hp hm h1
  refine ⟨successive_of_single hp hm hsingle hu, ?_, ?_, ?_, ?_⟩
  · exact ⟨j, j.nextRun, hj, hs.lastRun, rfl, hreckoned, hrule⟩
  · rintro es h₀ id task p tbl rfl added rfl hkept
    exact ⟨id, registered_until_removed added hkept⟩
  · intro e hp' hne
    obtain ⟨j', hj', hturn⟩ := next_turn (possible_sound hp) hp'.2 hj
    refine ⟨j, j', hj, hj', ?_⟩
    cases hturn with
    | begun => exact ⟨rfl, rfl⟩
    | ended t succeeded =>
      cases succeeded with
      | true => exact absurd rfl (hne t)
      | false => exact ⟨rfl, rfl⟩
    | kept _ _ lastRun nextRun => exact ⟨lastRun, nextRun⟩
  · rintro es h₀ t₀ n rfl hn hdue hsame hreg hidle henabled t hallowed
    rw [hsame, hn] at hreckoned
    have hle : t₀ ≤ t :=
      hallowed t₀ (List.mem_filterMap.mpr ⟨_, List.mem_append_right _ List.mem_cons_self, rfl⟩)
    refine (hrule t).mpr ⟨hreg, henabled j hj, hidle, ?_⟩
    rw [← Except.ok.inj hreckoned]
    exact Instant.le_trans hdue hle

/-! ## An hour of a job for every minute -/

/-- A job for every minute: the enqueue of 9:01 is under way while the tick of 9:02 comes, and then
fails. The job is off at 9:03, and is enqueued at 9:04. -/
def offAndOn : History :=
  [.completed ⟨0, afterNine 240⟩ true, .ticked (afterNine 240), .toggled "digest" true,
    .ticked (afterNine 180), .toggled "digest" false, .completed ⟨0, afterNine 60⟩ false,
    .ticked (afterNine 120), .ticked (afterNine 60),
    .added "digest" "send_digest" Cron.Expression.everyMinute ∅ (afterNine 30)]

theorem offAndOn_by_rule :
    Possible offAndOn ∧ Made 0 Cron.Expression.everyMinute (afterNine 30) offAndOn ∧
      Throughout (LimitOne 0) offAndOn ∧ (∀ t, .ticked t ∈ offAndOn → Usual t) ∧
      successes 0 offAndOn = [afterNine 240] ∧ served 0 offAndOn = [afterNine 60] ∧
      FiringRule 0 Cron.Expression.everyMinute (afterNine 30) offAndOn := by
  have hp : Possible offAndOn := by decide
  have hm : Made 0 Cron.Expression.everyMinute (afterNine 30) offAndOn :=
    .before _ (.before _ (.before _ (.before _ (.before _ (.before _ (.before _ (.before _
      (.now rfl rfl))))))))
  have h1 : Throughout (LimitOne 0) offAndOn := by decide
  have hu : ∀ t, .ticked t ∈ offAndOn → Usual t := by
    intro t ht
    simp only [offAndOn, List.mem_cons, Event.ticked.injEq, reduceCtorEq, List.not_mem_nil,
      or_false, false_or] at ht
    rcases ht with rfl | rfl | rfl | rfl <;> decide
  exact ⟨hp, hm, h1, hu, by decide, by decide, fires_by_rule hp hm h1 hu⟩

end TaskQueue.Schedule.Run
