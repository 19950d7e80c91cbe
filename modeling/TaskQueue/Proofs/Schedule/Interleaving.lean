import TaskQueue.Proofs.Schedule.Run

/-!
# Ticks that overlap

A scheduler is used by several callers at once. A tick takes the registered instances and then looks
at one after the other, each at some later time; a caller who changes a job finds its instance first
and changes it later. Between these steps anything else may happen: other ticks, the ends of
enqueues, removals, and registrations under an identifier that was in use before. The operations of
the table are the runs of these steps that nothing interrupts.

Results:

* `tick_uninterrupted`, `change_uninterrupted`: a tick or a change that nothing interrupts is that
  of the table;
* `next_turn`: what one step does to one instance;
* `Account.next`, `account_of_possible`: a step keeps the account of every instance, and so does
  every run;
* `in_flight_accounted`: **what is in flight is what was started and has not ended**, whatever
  happens in between, and the end of an enqueue touches its own instance alone.
-/

namespace TaskQueue.Schedule.Interleaved

open Time Run

/-! ## Steps -/

/-- What a caller changes of a job. -/
inductive Switch where
  | enabled (b : Bool)
  | limit (n : Nat) (pos : 0 < n)
  deriving DecidableEq

/-- The job after a change. -/
def Switch.apply : Switch → Job → Job
  | enabled b, j => { j with enabled := b }
  | limit n _, j => { j with maxConcurrent := n }

/-- What can happen to a scheduler. -/
inductive Event where
  | added (id task : String) (schedule : Cron.Expression) (p : Payload) (now : Instant)
  | removed (id : String)
  /-- A caller finds the instance that is to be changed. -/
  | found (id : String) (change : Switch)
  /-- The instance is changed. -/
  | changed (k : Key) (change : Switch)
  /-- A tick takes the registered instances. -/
  | began (now : Instant)
  /-- A tick looks at an instance, and starts an enqueue if it fires. -/
  | visited (v : Enqueue)
  | completed (e : Enqueue) (succeeded : Bool)

/-- A scheduler in use. -/
structure State where
  table : Table
  /-- The enqueues that were started and have not come to an end. -/
  underWay : List Enqueue
  /-- What ticks have still to look at: the enqueues that they may start. -/
  visits : List Enqueue
  /-- The changes of instances that were found and are not changed yet. -/
  changes : List (Key × Switch)

/-- An instance fires at `now`. -/
def fires (t : Table) (k : Key) (now : Instant) : Bool :=
  (t.instances.get? k).any fun j => j.fires now

namespace State

/-- An instance. -/
def job? (s : State) (k : Key) : Option Job := s.table.instances.get? k

/-- The enqueue that an event starts. -/
def started? (s : State) : Event → Option Enqueue
  | .visited v => if fires s.table v.key v.start then some v else none
  | _ => none

/-- The state after an event. -/
def next (s : State) : Event → State
  | .added id task c p now =>
    { s with table := (s.table.add id task c p now).toOption.getD s.table }
  | .removed id => { s with table := (s.table.remove id).toOption.getD s.table }
  | .found id change =>
    match s.table.key? id with
    | .ok k => { s with changes := (k, change) :: s.changes }
    | .error _ => s
  | .changed k change =>
    { s with table := s.table.change k change.apply, changes := s.changes.erase (k, change) }
  | .began now =>
    { s with visits := s.visits ++ s.table.registered.values.map fun k => ⟨k, now⟩ }
  | .visited v =>
    if fires s.table v.key v.start then
      { s with
        table := s.table.change v.key .begin
        underWay := s.underWay ++ [v]
        visits := s.visits.erase v }
    else { s with visits := s.visits.erase v }
  | .completed e succeeded =>
    { s with
      table := (s.table.complete e.key e.start succeeded).1
      underWay := s.underWay.erase e }

end State

/-! ## Histories -/

/-- What has happened, the latest event first. -/
abbrev History := List Event

/-- The state after a history. -/
def after : History → State
  | [] => ⟨∅, [], [], []⟩
  | e :: h => (after h).next e

/-- An event can come next: a tick looks at what it took, a caller changes what it found, and only
an enqueue that is under way comes to an end. -/
def Allowed (h : History) : Event → Prop
  | .changed k change => (k, change) ∈ (after h).changes
  | .visited v => v ∈ (after h).visits
  | .completed e _ => e ∈ (after h).underWay
  | _ => True

/-- **A run of a scheduler that is used by several callers.** -/
def Possible : History → Prop
  | [] => True
  | e :: h => Possible h ∧ Allowed h e

instance (h : History) : (e : Event) → Decidable (Allowed h e)
  | .changed k change => inferInstanceAs (Decidable ((k, change) ∈ (after h).changes))
  | .visited v => inferInstanceAs (Decidable (v ∈ (after h).visits))
  | .completed e _ => inferInstanceAs (Decidable (e ∈ (after h).underWay))
  | .added .. | .removed _ | .found .. | .began _ => .isTrue trivial

instance decidablePossible : (h : History) → Decidable (Possible h)
  | [] => .isTrue trivial
  | e :: h =>
    have := decidablePossible h
    inferInstanceAs (Decidable (Possible h ∧ Allowed h e))

/-- How many enqueues an instance has started. -/
def started (k : Key) : History → Nat
  | [] => 0
  | e :: h => started k h + if ((after h).started? e).any (·.key = k) then 1 else 0

/-- The enqueue that comes to an end in an event. -/
def Event.ended? : Event → Option Enqueue
  | completed e _ => some e
  | _ => none

/-- How many enqueues of an instance have come to an end. -/
def ended (k : Key) : History → Nat
  | [] => 0
  | e :: h => ended k h + if e.ended?.any (·.key = k) then 1 else 0

/-- The largest limit that an instance has had. -/
def largestLimit (k : Key) : History → Nat
  | [] => 0
  | e :: h => max (largestLimit k h) (((after (e :: h)).job? k).elim 0 Job.maxConcurrent)

variable {s s' : State} {h : History} {e : Event} {k : Key} {j j' : Job} {now : Instant}

/-! ## What nothing interrupts -/

/-- A tick looks at one instance after the other, and nothing else happens. -/
def State.visitAll (s : State) (ks : List Key) (now : Instant) : State :=
  ks.foldl (fun s k => s.next (.visited ⟨k, now⟩)) s

theorem visitAll_spec (ks : List Key) (hks : ks.Nodup) (s : State) (now : Instant) :
    (s.visitAll ks now).table =
        (ks.filter (fires s.table · now)).foldl (fun t k => t.change k .begin) s.table ∧
      (s.visitAll ks now).underWay =
        s.underWay ++ (ks.filter (fires s.table · now)).map fun k => ⟨k, now⟩ := by
  induction ks generalizing s with
  | nil => exact ⟨rfl, (List.append_nil _).symm⟩
  | cons k₀ ks ih =>
    obtain ⟨hnot, hks⟩ := List.nodup_cons.mp hks
    obtain ⟨htable, hunder⟩ := ih hks (s.next (.visited ⟨k₀, now⟩))
    have hcons : s.visitAll (k₀ :: ks) now = (s.next (.visited ⟨k₀, now⟩)).visitAll ks now := rfl
    by_cases hf : fires s.table k₀ now = true
    · have hnext : s.next (.visited ⟨k₀, now⟩) =
          { s with
            table := s.table.change k₀ .begin
            underWay := s.underWay ++ [⟨k₀, now⟩]
            visits := s.visits.erase ⟨k₀, now⟩ } := if_pos hf
      -- the start of one enqueue does not touch the other instances
      have hsame : ks.filter (fires (s.table.change k₀ .begin) · now) =
          ks.filter (fires s.table · now) := by
        refine List.filter_congr fun k hk => ?_
        have hne : k ≠ k₀ := fun heq => hnot (heq ▸ hk)
        unfold fires
        rw [Table.get?_change, if_neg hne]
      have hfilter : (k₀ :: ks).filter (fires s.table · now) =
          k₀ :: ks.filter (fires s.table · now) := List.filter_cons_of_pos hf
      rw [hnext] at hcons htable hunder
      rw [hsame] at htable hunder
      rw [hcons, hfilter]
      exact ⟨htable, hunder.trans (List.append_assoc _ _ _)⟩
    · have hnext : s.next (.visited ⟨k₀, now⟩) = { s with visits := s.visits.erase ⟨k₀, now⟩ } :=
        if_neg hf
      have hfilter : (k₀ :: ks).filter (fires s.table · now) =
          ks.filter (fires s.table · now) := List.filter_cons_of_neg hf
      rw [hnext] at hcons htable hunder
      rw [hcons, hfilter]
      exact ⟨htable, hunder⟩

/-- **A tick that nothing interrupts** is the tick of the table. -/
theorem tick_uninterrupted (hs : s.table.Sound) (now : Instant) :
    ((s.next (.began now)).visitAll s.table.registered.values now).table = (s.table.tick now).2 ∧
      ((s.next (.began now)).visitAll s.table.registered.values now).underWay =
        s.underWay ++ (s.table.tick now).1.map fun k => ⟨k, now⟩ :=
  visitAll_spec _ (Dict.nodup_values hs.distinct) (s.next (.began now)) now

/-- Finding an instance changes no job. -/
theorem next_found (s : State) (id : String) (change : Switch) :
    (s.next (.found id change)).table = s.table ∧
      (s.next (.found id change)).underWay = s.underWay := by
  unfold State.next
  dsimp only
  split <;> exact ⟨rfl, rfl⟩

/-- The request of the table that a change comes from. -/
def Switch.request (t : Table) (id : String) : Switch → Except Failure Table
  | enabled b => t.setEnabled id b
  | limit n _ => t.setMaxConcurrent id n

/-- **A change that nothing interrupts** is the request of the table. -/
theorem change_uninterrupted {id : String} (hk : s.table.key? id = .ok k) (change : Switch) :
    change.request s.table id =
      .ok ((s.next (.found id change)).next (.changed k change)).table := by
  have hnext : ((s.next (.found id change)).next (.changed k change)).table =
      s.table.change k change.apply := by
    rw [← (next_found s id change).1]
    rfl
  rw [hnext]
  cases change with
  | enabled b =>
    show s.table.setEnabled id b = _
    unfold Table.setEnabled
    rw [hk]
    rfl
  | limit n pos =>
    show s.table.setMaxConcurrent id n = _
    unfold Table.setMaxConcurrent
    rw [if_neg (Nat.ne_of_gt pos), hk]
    rfl

/-! ## One instance -/

/-- The enqueues that an instance has in flight; one that is not there has none. -/
def State.inFlight (s : State) (k : Key) : Nat := (s.job? k).elim 0 Job.inFlight

theorem State.inFlight_of (hj : s.job? k = some j) : s.inFlight k = j.inFlight := by
  unfold inFlight
  rw [hj]
  rfl

/-- **What one event does to an instance.** -/
inductive Turn (k : Key) (s : State) : Event → State → Prop where
  | begun {s' : State} {j : Job} (t : Instant) (job : s.job? k = some j) (fires : j.fires t = true)
      (inFlight : s'.inFlight k = s.inFlight k + 1)
      (starts : startsOf k s'.underWay = startsOf k s.underWay ++ [t]) :
      Turn k s (.visited ⟨k, t⟩) s'
  | ended {s' : State} (t : Instant) (succeeded : Bool) (underWay : ⟨k, t⟩ ∈ s.underWay)
      (inFlight : s'.inFlight k = s.inFlight k - 1)
      (starts : startsOf k s'.underWay = (startsOf k s.underWay).erase t) :
      Turn k s (.completed ⟨k, t⟩ succeeded) s'
  | kept {e : Event} {s' : State} (noStart : ∀ q, s.started? e = some q → q.key ≠ k)
      (noEnd : ∀ q, e.ended? = some q → q.key ≠ k) (inFlight : s'.inFlight k = s.inFlight k)
      (starts : startsOf k s'.underWay = startsOf k s.underWay) : Turn k s e s'

/-- An event that starts nothing of an instance. -/
theorem noStart_of_none (h : s.started? e = none) : ∀ q, s.started? e = some q → q.key ≠ k := by
  intro q hq
  rw [h] at hq
  cases hq

/-- An event that ends nothing of an instance. -/
theorem noEnd_of_none (h : e.ended? = none) : ∀ q, e.ended? = some q → q.key ≠ k := by
  intro q hq
  rw [h] at hq
  cases hq

/-- An event that starts and ends nothing. -/
theorem turn_quiet (noStart : s.started? e = none) (noEnd : e.ended? = none)
    (inFlight : s'.inFlight k = s.inFlight k) (underWay : s'.underWay = s.underWay) :
    Turn k s e s' :=
  .kept (noStart_of_none noStart) (noEnd_of_none noEnd) inFlight (by rw [underWay])

/-- A request starts and ends nothing, and one that is refused changes nothing. -/
theorem turn_answered {r : Except Failure Table} (noStart : s.started? e = none)
    (noEnd : e.ended? = none)
    (hr : ∀ t, r = .ok t → State.inFlight { s with table := t } k = s.inFlight k) :
    Turn k s e { s with table := r.toOption.getD s.table } := by
  cases r with
  | error f => exact turn_quiet noStart noEnd rfl rfl
  | ok t => exact turn_quiet noStart noEnd (hr t rfl) rfl

/-- A registration makes an instance with nothing in flight. -/
theorem inFlight_add {id task : String} {c : Cron.Expression} {p : Payload} {t : Table}
    (hs : s.table.Sound) (h : s.table.add id task c p now = .ok t) :
    State.inFlight { s with table := t } k = s.inFlight k := by
  obtain ⟨j, hj, rfl⟩ := Table.add_ok h
  obtain ⟨n, -, rfl⟩ := Job.make_ok hj
  unfold State.inFlight State.job?
  rw [Dict.get?_insert]
  split
  · next hk =>
    rw [hk, hs.fresh _ (Nat.le_refl _)]
    rfl
  · rfl

/-- A change of a job's switches. -/
theorem inFlight_change {k' : Key} {f : Job → Job} (hf : ∀ j, (f j).inFlight = j.inFlight) :
    State.inFlight { s with table := s.table.change k' f } k = s.inFlight k := by
  unfold State.inFlight State.job?
  rw [Table.get?_change]
  split
  · next hk =>
    subst hk
    cases s.table.instances.get? k with
    | none => rfl
    | some j => exact hf j
  · rfl

/-- A visit starts an enqueue of the instance that is visited, or none. -/
theorem turn_visited (s : State) (v : Enqueue) (k : Key) :
    Turn k s (.visited v) (s.next (.visited v)) := by
  by_cases hf : fires s.table v.key v.start = true
  · have hnext : s.next (.visited v) =
        { s with
          table := s.table.change v.key .begin
          underWay := s.underWay ++ [v]
          visits := s.visits.erase v } := if_pos hf
    have hget := Table.get?_change s.table v.key k Job.begin
    by_cases hk : v.key = k
    · obtain ⟨k', t⟩ := v
      subst hk
      obtain ⟨j, hj, hfires⟩ := (Option.any_eq_true _ _).mp hf
      rw [if_pos rfl, hj] at hget
      rw [hnext]
      refine .begun t hj hfires ?_ ((startsOf_append _ _ _).trans (by rw [startsOf_cons_self]; rfl))
      rw [State.inFlight_of hj]
      unfold State.inFlight State.job?
      rw [hget]
      rfl
    · rw [if_neg (Ne.symm hk)] at hget
      rw [hnext]
      refine .kept (fun q hq => ?_) (noEnd_of_none rfl) ?_ ?_
      · obtain rfl := Option.some.inj ((if_pos hf).symm.trans hq)
        exact hk
      · unfold State.inFlight State.job?
        rw [hget]
      · show startsOf k (s.underWay ++ [v]) = _
        rw [startsOf_append, startsOf_cons_of_ne hk]
        exact List.append_nil _
  · have hnext : s.next (.visited v) = { s with visits := s.visits.erase v } := if_neg hf
    rw [hnext]
    exact turn_quiet (if_neg hf) rfl rfl rfl

/-- The end of an enqueue is one of the instance that has started it. -/
theorem turn_completed {q : Enqueue} (hq : q ∈ s.underWay) (succeeded : Bool) (k : Key) :
    Turn k s (.completed q succeeded) (s.next (.completed q succeeded)) := by
  have hget := Table.get?_complete s.table q.key k q.start succeeded
  obtain ⟨k', t⟩ := q
  by_cases hk : k = k'
  · subst hk
    rw [if_pos rfl] at hget
    refine .ended t succeeded hq ?_ (startsOf_erase _ _ _)
    unfold State.inFlight State.job?
    show Option.elim ((s.table.complete k t succeeded).1.instances.get? k) 0 _ = _
    rw [hget]
    cases s.table.instances.get? k with
    | none => rfl
    | some j =>
      cases succeeded with
      | true => exact Job.advance_inFlight j t
      | false => rfl
  · rw [if_neg hk] at hget
    refine .kept (noStart_of_none rfl) (fun q hq => ?_) ?_ (startsOf_erase_of_ne (Ne.symm hk) _)
    · obtain rfl := Option.some.inj hq
      exact Ne.symm hk
    · unfold State.inFlight State.job?
      show Option.elim ((s.table.complete k' t succeeded).1.instances.get? k) 0 _ = _
      rw [hget]

/-- **Every event is a turn** of every instance. -/
theorem next_turn (hs : (after h).table.Sound) (ha : Allowed h e) (k : Key) :
    Turn k (after h) e (after (e :: h)) := by
  cases e with
  | added id task c p now => exact turn_answered rfl rfl fun t ht => inFlight_add hs ht
  | removed id =>
    refine turn_answered rfl rfl fun t ht => ?_
    obtain rfl := Table.remove_ok ht
    rfl
  | found id change =>
    obtain ⟨htable, hunder⟩ := next_found (after h) id change
    refine turn_quiet rfl rfl ?_ hunder
    show State.inFlight ((after h).next (.found id change)) k = _
    unfold State.inFlight State.job?
    rw [htable]
  | changed k' change =>
    refine turn_quiet rfl rfl (inFlight_change fun j => ?_) rfl
    cases change <;> rfl
  | began now => exact turn_quiet rfl rfl rfl rfl
  | visited v => exact turn_visited (after h) v k
  | completed q succeeded => exact turn_completed ha succeeded k

/-! ## Every run -/

/-- An event keeps the table sound. -/
theorem sound_next (hs : s.table.Sound) (e : Event) : (s.next e).table.Sound := by
  have answered {r : Except Failure Table} (hr : ∀ t, r = .ok t → t.Sound) :
      (r.toOption.getD s.table).Sound := by
    cases r with
    | error f => exact hs
    | ok t => exact hr t rfl
  cases e with
  | added id task c p now => exact answered fun t ht => Table.sound_add hs ht
  | removed id => exact answered fun t ht => Table.sound_remove hs ht
  | found id change =>
    rw [(next_found s id change).1]
    exact hs
  | changed k change => exact Table.sound_change hs k _
  | began now => exact hs
  | visited v =>
    unfold State.next
    dsimp only
    split
    · exact Table.sound_change hs v.key _
    · exact hs
  | completed q succeeded => exact Table.sound_complete hs q.key q.start succeeded

/-- **In every run the table is sound.** -/
theorem sound_after (h : History) : (after h).table.Sound := by
  induction h with
  | nil => exact Table.sound_empty
  | cons e h ih => exact sound_next ih e

/-- **The account of an instance.** -/
structure Account (k : Key) (h : History) : Prop where
  /-- What is in flight is what is under way. -/
  inFlight : (after h).inFlight k = (startsOf k (after h).underWay).length
  /-- What is under way was started and has not ended. -/
  balance : (startsOf k (after h).underWay).length + ended k h = started k h
  /-- It is never more than some limit of the instance has allowed. -/
  limit : (after h).inFlight k ≤ largestLimit k h

theorem limit_le_largestLimit (hj : (after h).job? k = some j) :
    j.maxConcurrent ≤ largestLimit k h := by
  cases h with
  | nil => cases hj
  | cons e h =>
    show _ ≤ max (largestLimit k h) (((after (e :: h)).job? k).elim 0 Job.maxConcurrent)
    rw [hj]
    exact Nat.le_max_right _ _

theorem largestLimit_le_cons (k : Key) (e : Event) (h : History) :
    largestLimit k h ≤ largestLimit k (e :: h) :=
  Nat.le_max_left _ _

theorem started_cons (k : Key) (e : Event) (h : History) : started k (e :: h) =
    started k h + if ((after h).started? e).any (·.key = k) then 1 else 0 := rfl

theorem ended_cons (k : Key) (e : Event) (h : History) :
    ended k (e :: h) = ended k h + if e.ended?.any (·.key = k) then 1 else 0 := rfl

/-- The counts after an event that starts and ends nothing of an instance. -/
theorem counts_kept (noStart : ∀ q, (after h).started? e = some q → q.key ≠ k)
    (noEnd : ∀ q, e.ended? = some q → q.key ≠ k) :
    started k (e :: h) = started k h ∧ ended k (e :: h) = ended k h := by
  have none_of {o : Option Enqueue} (ho : ∀ q, o = some q → q.key ≠ k) :
      ¬ o.any (·.key = k) = true := by
    intro hany
    obtain ⟨q, hq, hkey⟩ := (Option.any_eq_true _ _).mp hany
    exact ho q hq (of_decide_eq_true hkey)
  rw [started_cons, ended_cons, if_neg (none_of noStart), if_neg (none_of noEnd)]
  exact ⟨rfl, rfl⟩

/-- **A step keeps the account of every instance.** -/
theorem Account.next (hk : Account k h) (hturn : Turn k (after h) e (after (e :: h))) :
    Account k (e :: h) := by
  have hlimit := largestLimit_le_cons k e h
  cases hturn with
  | begun t job fires inFlight starts =>
    -- the limit leaves room for one more
    have hroom := (Job.fires_iff.mp fires).2.2
    have hmax := limit_le_largestLimit job
    rw [← State.inFlight_of job] at hroom
    have hstarted : started k (.visited ⟨k, t⟩ :: h) = started k h + 1 := by
      have hfires : (after h).started? (.visited ⟨k, t⟩) = some ⟨k, t⟩ :=
        if_pos ((Option.any_eq_true _ _).mpr ⟨_, job, fires⟩)
      have hmine : ((after h).started? (.visited ⟨k, t⟩)).any (·.key = k) = true := by
        rw [hfires]
        exact decide_eq_true (Eq.refl k)
      rw [started_cons, if_pos hmine]
    refine ⟨?_, ?_, ?_⟩
    · rw [inFlight, starts, List.length_append, hk.inFlight, List.length_singleton]
    · rw [starts, List.length_append, hstarted, ← hk.balance, List.length_singleton]
      show _ + 1 + (ended k h + 0) = _
      omega
    · omega
  | ended t succeeded underWay inFlight starts =>
    have hmem := mem_startsOf.mpr underWay
    have hlength := List.length_erase_of_mem hmem
    have hpos := List.length_pos_of_mem hmem
    have hmine : (Event.ended? (.completed ⟨k, t⟩ succeeded)).any (·.key = k) = true :=
      decide_eq_true (Eq.refl k)
    have hended : Interleaved.ended k (.completed ⟨k, t⟩ succeeded :: h) =
        Interleaved.ended k h + 1 := by rw [ended_cons, if_pos hmine]
    refine ⟨?_, ?_, ?_⟩
    · rw [inFlight, starts, hlength, hk.inFlight]
    · rw [starts, hlength, hended]
      have hbalance := hk.balance
      show _ = started k h + 0
      omega
    · have hbound := hk.limit
      omega
  | kept noStart noEnd inFlight starts =>
    obtain ⟨hstarted, hended⟩ := counts_kept noStart noEnd
    refine ⟨?_, ?_, ?_⟩
    · rw [inFlight, starts]
      exact hk.inFlight
    · rw [starts, hstarted, hended]
      exact hk.balance
    · rw [inFlight]
      exact Nat.le_trans hk.limit hlimit

/-- **Every run keeps the account of every instance.** -/
theorem account_of_possible (hp : Possible h) (k : Key) : Account k h := by
  induction h with
  | nil => exact ⟨rfl, rfl, Nat.le_refl 0⟩
  | cons e h ih => exact (ih hp.1).next (next_turn (sound_after h) hp.2 k)

/-! ## The result -/

/-- **How a scheduler accounts for its enqueues.** -/
structure Accounted (h : History) : Prop where
  /-- What an instance has in flight is what it has started and what has not ended. -/
  inFlight : ∀ k j, (after h).job? k = some j →
    j.inFlight = (startsOf k (after h).underWay).length ∧ j.inFlight + ended k h = started k h
  /-- It is never more than the largest limit that the instance has had. -/
  limit : ∀ k j, (after h).job? k = some j → j.inFlight ≤ largestLimit k h
  /-- An enqueue is started by an instance that is enabled and due and has room for one more. -/
  starts : ∀ e q, (after h).started? e = some q → ∃ j, (after h).job? q.key = some j ∧
    j.enabled = true ∧ j.nextRun ≤ q.start ∧ j.inFlight < j.maxConcurrent
  /-- An enqueue that ends is one that its instance has in flight. Nothing else of the instance is
  changed but, when it has succeeded, the last run and the next. -/
  ends : ∀ q succeeded, Allowed h (.completed q succeeded) →
    ∃ j last next, (after h).job? q.key = some j ∧ 0 < j.inFlight ∧
      (after (.completed q succeeded :: h)).job? q.key =
        some { j with inFlight := j.inFlight - 1, lastRun := last, nextRun := next } ∧
      (succeeded = false → last = j.lastRun ∧ next = j.nextRun)
  /-- No other instance is changed, and nothing is registered or taken out. -/
  apart : ∀ q succeeded, Allowed h (.completed q succeeded) →
    (after (.completed q succeeded :: h)).table.registered = (after h).table.registered ∧
    ∀ k, k ≠ q.key → (after (.completed q succeeded :: h)).job? k = (after h).job? k
  /-- A registration makes an instance of its own, also under an identifier that was in use. -/
  fresh : ∀ id task c p now t, (after h).table.add id task c p now = .ok t →
    (after h).job? (after h).table.nextKey = none ∧ t.registered.get? id =
      some (after h).table.nextKey ∧ ∀ k j, (after h).job? k = some j → t.instances.get? k = some j

/-- The end of an enqueue touches three fields of its job. -/
theorem finished_eq (t : Instant) (succeeded : Bool) (j : Job) :
    ∃ last next, Table.finished t succeeded j =
        { j with inFlight := j.inFlight - 1, lastRun := last, nextRun := next } ∧
      (succeeded = false → last = j.lastRun ∧ next = j.nextRun) := by
  cases succeeded with
  | false => exact ⟨j.lastRun, j.nextRun, rfl, fun _ => ⟨rfl, rfl⟩⟩
  | true =>
    show ∃ last next, (j.advance t).1 = _ ∧ _
    unfold Job.advance Job.release
    dsimp only
    split
    · next n hn => exact ⟨some t, n, rfl, nofun⟩
    · exact ⟨some t, j.nextRun, rfl, nofun⟩

/-- What is started is started by an instance that fires. -/
theorem fires_of_started {q : Enqueue} (hq : s.started? e = some q) :
    ∃ j, s.job? q.key = some j ∧
      j.enabled = true ∧ j.nextRun ≤ q.start ∧ j.inFlight < j.maxConcurrent := by
  cases e with
  | visited v =>
    by_cases hf : fires s.table v.key v.start = true
    · obtain rfl := Option.some.inj ((if_pos hf).symm.trans hq)
      obtain ⟨j, hj, hfires⟩ := (Option.any_eq_true _ _).mp hf
      exact ⟨j, hj, Job.fires_iff.mp hfires⟩
    · have hnone : s.started? (.visited v) = none := if_neg hf
      rw [hnone] at hq
      cases hq
  | _ => cases hq

/-- **The end of an enqueue** finds the enqueue in flight at its own instance. -/
theorem completed_own (hp : Possible h) {q : Enqueue} (succeeded : Bool)
    (ha : Allowed h (.completed q succeeded)) :
    ∃ j last next, (after h).job? q.key = some j ∧ 0 < j.inFlight ∧
      (after (.completed q succeeded :: h)).job? q.key =
        some { j with inFlight := j.inFlight - 1, lastRun := last, nextRun := next } ∧
      (succeeded = false → last = j.lastRun ∧ next = j.nextRun) := by
  have hcount := (account_of_possible hp q.key).inFlight
  have hmem : ⟨q.key, q.start⟩ ∈ (after h).underWay := ha
  have hpos := List.length_pos_of_mem (mem_startsOf.mpr hmem)
  have hget := Table.get?_complete (after h).table q.key q.key q.start succeeded
  rw [if_pos rfl] at hget
  cases hj : (after h).job? q.key with
  | none =>
    -- an instance that is not there has nothing in flight
    unfold State.inFlight at hcount
    rw [hj] at hcount
    exact absurd hcount (Nat.ne_of_lt hpos)
  | some j =>
    obtain ⟨last, next, heq, hfailed⟩ := finished_eq q.start succeeded j
    rw [show (after h).table.instances.get? q.key = some j from hj, Option.map_some, heq] at hget
    rw [State.inFlight_of hj] at hcount
    exact ⟨j, last, next, rfl, hcount ▸ hpos, hget, hfailed⟩

/-- **What is in flight is what was started and has not ended**, in every interleaving of ticks,
ends of enqueues and changes of the table. -/
theorem in_flight_accounted (hp : Possible h) : Accounted h where
  inFlight k j hj := by
    have hk := account_of_possible hp k
    have hcount := hk.inFlight
    rw [State.inFlight_of hj] at hcount
    exact ⟨hcount, by rw [hcount]; exact hk.balance⟩
  limit k j hj := by
    rw [← State.inFlight_of hj]
    exact (account_of_possible hp k).limit
  starts _ _ hq := fires_of_started hq
  ends _ succeeded ha := completed_own hp succeeded ha
  apart q succeeded _ := by
    refine ⟨Table.registered_complete _ _ _ _, fun k hk => ?_⟩
    exact (Table.get?_complete _ _ _ _ _).trans (if_neg hk)
  fresh id task c p now t ht := by
    have hs := sound_after h
    obtain ⟨-, j, -, rfl⟩ := Table.add_free ht
    exact ⟨hs.fresh _ (Nat.le_refl _), (Dict.get?_insert _ _ _ _).trans (if_pos rfl),
      fun k j' hj' => Table.get?_add hs ht hj'⟩

/-! ## Two ticks at once, and a job that is replaced -/

/-- Two ticks start an enqueue each of a job that is then removed and registered anew. The new
instance has one enqueue under way when those of the old one end. -/
def replaced : History :=
  [.completed ⟨0, afterNine 60⟩ false, .completed ⟨0, afterNine 120⟩ true,
    .visited ⟨1, afterNine 180⟩, .began (afterNine 180),
    .added "digest" "send_digest" Cron.Expression.everyMinute ∅ (afterNine 130), .removed "digest",
    .visited ⟨0, afterNine 120⟩, .visited ⟨0, afterNine 120⟩, .changed 0 (.limit 2 (by decide)),
    .visited ⟨0, afterNine 60⟩, .began (afterNine 120), .began (afterNine 120),
    .found "digest" (.limit 2 (by decide)), .began (afterNine 60),
    .added "digest" "send_digest" Cron.Expression.everyMinute ∅ (afterNine 30)]

theorem replaced_accounted : Possible replaced ∧ Accounted replaced ∧
    started 0 replaced = 2 ∧ ended 0 replaced = 2 ∧ largestLimit 0 replaced = 2 ∧
    ((after replaced).job? 0).map Job.inFlight = some 0 ∧
    ((after replaced).job? 1).map (fun j => (j.inFlight, j.lastRun)) = some (1, none) := by
  have hp : Possible replaced := by decide
  exact ⟨hp, in_flight_accounted hp, by decide, by decide, by decide, by decide, by decide⟩

end TaskQueue.Schedule.Interleaved
