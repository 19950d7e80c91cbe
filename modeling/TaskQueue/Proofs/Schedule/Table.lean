import TaskQueue.Proofs.Dict
import TaskQueue.Schedule.Table

/-!
# What the operations do to one instance

In a sound table no instance is registered twice, and the next key is new. So a tick starts at most
one enqueue of an instance, and a registration touches no instance that is there.

Results:

* `add_eq`, `remove_eq`, `setEnabled_eq`, `setMaxConcurrent_eq`: when a request is refused, and what
  it does else;
* `sound_empty`, `sound_add`, `sound_remove`, `sound_change`, `sound_tick`, `sound_complete`: every
  operation keeps a table sound;
* `get?_change`, `get?_tick`: what becomes of an instance;
* `nodup_firing`, `mem_firing_iff`: which instances fire;
* `registered_tick`, `registered_complete`: running changes no registration.
-/

namespace TaskQueue.Schedule

open Time

variable {t t' : Table} {id task : String} {c : Cron.Expression} {p : Payload} {now start : Instant}
  {k k' : Key} {j : Job} {f : Failure}

namespace Job

/-- A new job has not run, has nothing under way, and waits for its first run. -/
theorem make_ok (h : make id task c p now = .ok j) :
    ∃ n, c.nextRun now = .ok n ∧ j = ⟨id, task, c, p, none, n, true, 1, 0⟩ := by
  unfold make at h
  cases hn : c.nextRun now with
  | error e =>
    rw [hn] at h
    cases h
  | ok n =>
    rw [hn] at h
    exact ⟨n, rfl, (Except.ok.inj h).symm⟩

theorem fires_iff :
    j.fires now = true ↔ j.enabled = true ∧ j.nextRun ≤ now ∧ j.inFlight < j.maxConcurrent := by
  unfold fires
  simp only [Bool.and_eq_true, decide_eq_true_eq, and_assoc]

/-! ## An enqueue that has succeeded -/

@[simp] theorem advance_id (j : Job) (start : Instant) : (j.advance start).1.id = j.id := by
  unfold advance release
  dsimp only
  split <;> rfl

@[simp] theorem advance_schedule (j : Job) (start : Instant) :
    (j.advance start).1.schedule = j.schedule := by
  unfold advance release
  dsimp only
  split <;> rfl

@[simp] theorem advance_lastRun (j : Job) (start : Instant) :
    (j.advance start).1.lastRun = some start := by
  unfold advance release
  dsimp only
  split <;> rfl

@[simp] theorem advance_inFlight (j : Job) (start : Instant) :
    (j.advance start).1.inFlight = j.inFlight - 1 := by
  unfold advance release
  dsimp only
  split <;> rfl

@[simp] theorem advance_maxConcurrent (j : Job) (start : Instant) :
    (j.advance start).1.maxConcurrent = j.maxConcurrent := by
  unfold advance release
  dsimp only
  split <;> rfl

/-- The next run is reckoned from the start of the enqueue, and stays when that cannot be done. -/
@[simp] theorem advance_nextRun (j : Job) (start : Instant) :
    (j.advance start).1.nextRun = (j.schedule.nextRun start).toOption.getD j.nextRun := by
  unfold advance release
  dsimp only
  cases j.schedule.nextRun start <;> rfl

end Job

namespace Table

/-! ## Sound tables -/

/-- **No instance is registered twice, and the next key is new.** -/
structure Sound (t : Table) : Prop where
  fresh : ∀ k, t.nextKey ≤ k → t.instances.get? k = none
  known : ∀ id k, t.registered.get? id = some k → k < t.nextKey
  distinct : ∀ id id' k, t.registered.get? id = some k → t.registered.get? id' = some k → id = id'

theorem sound_empty : (∅ : Table).Sound := ⟨fun _ _ => rfl, nofun, nofun⟩

/-! ## Requests -/

theorem key?_eq_ok_iff : t.key? id = .ok k ↔ t.registered.get? id = some k := by
  unfold key?
  cases t.registered.get? id with
  | none => exact ⟨nofun, nofun⟩
  | some k' =>
    exact ⟨fun h => congrArg some (Except.ok.inj h), fun h => congrArg _ (Option.some.inj h)⟩

theorem key?_eq_error_iff :
    t.key? id = .error f ↔ t.registered.get? id = none ∧ f = .jobNotFound id := by
  unfold key?
  cases t.registered.get? id with
  | none => exact ⟨fun h => ⟨rfl, (Except.error.inj h).symm⟩, fun h => congrArg _ h.2.symm⟩
  | some k' => exact ⟨nofun, fun h => nomatch h.1⟩

/-- When a registration is refused, and what it does else. -/
theorem add_eq (t : Table) (id task : String) (c : Cron.Expression) (p : Payload)
    (now : Instant) : t.add id task c p now =
      if Text.isAllBlank id = true then .error .emptyJobId else
      match c.nextRun now with
      | .error e => .error (.overflow e)
      | .ok n =>
        if t.registered.contains id = true then .error (.duplicateJob id)
        else .ok ⟨t.instances.insert t.nextKey ⟨id, task, c, p, none, n, true, 1, 0⟩,
          t.registered.insert id t.nextKey, t.nextKey + 1⟩ := by
  unfold add Job.make
  by_cases hblank : Text.isAllBlank id = true
  · rw [if_pos hblank, if_pos hblank]
    rfl
  · rw [if_neg hblank, if_neg hblank]
    cases c.nextRun now with
    | error e => rfl
    | ok n =>
      by_cases htaken : t.registered.contains id = true
      · simp only [if_pos htaken]
        rfl
      · simp only [if_neg htaken]
        rfl

theorem remove_eq (t : Table) (id : String) : t.remove id =
    (t.key? id).map fun _ => { t with registered := t.registered.erase id } := by
  unfold remove
  cases t.key? id <;> rfl

theorem setEnabled_eq (t : Table) (id : String) (b : Bool) : t.setEnabled id b =
    (t.key? id).map fun k => t.change k fun j => { j with enabled := b } := by
  unfold setEnabled
  cases t.key? id <;> rfl

theorem setMaxConcurrent_eq (t : Table) (id : String) {n : Nat} (hn : n ≠ 0) :
    t.setMaxConcurrent id n =
      (t.key? id).map fun k => t.change k fun j => { j with maxConcurrent := n } := by
  unfold setMaxConcurrent
  rw [if_neg hn]
  cases t.key? id <;> rfl

/-- A request that finds a job first is refused when there is none. -/
theorem map_key?_eq_error_iff {g : Key → Table} :
    (t.key? id).map g = .error f ↔ t.registered.get? id = none ∧ f = .jobNotFound id := by
  rw [← key?_eq_error_iff]
  cases t.key? id with
  | error f' =>
    exact ⟨fun h => congrArg _ (Except.error.inj h), fun h => congrArg _ (Except.error.inj h)⟩
  | ok k => exact ⟨nofun, nofun⟩

/-- A request that succeeds has found its job. -/
theorem map_key?_eq_ok {g : Key → Table} (h : (t.key? id).map g = .ok t') :
    ∃ k, t.registered.get? id = some k ∧ t' = g k := by
  cases hk : t.key? id with
  | error f' =>
    rw [hk] at h
    cases h
  | ok k =>
    rw [hk] at h
    exact ⟨k, key?_eq_ok_iff.mp hk, (Except.ok.inj h).symm⟩

/-! ## Registration -/

/-- A registration is made under an identifier that is free. -/
theorem add_free (h : t.add id task c p now = .ok t') : t.registered.get? id = none ∧
    ∃ j, Job.make id task c p now = .ok j ∧
      t' = ⟨t.instances.insert t.nextKey j, t.registered.insert id t.nextKey, t.nextKey + 1⟩ := by
  rw [add_eq] at h
  split at h
  · cases h
  · split at h
    · cases h
    · next n hn =>
      split at h
      · cases h
      · next hfree =>
        refine ⟨Option.not_isSome_iff_eq_none.mp hfree, _, ?_, (Except.ok.inj h).symm⟩
        unfold Job.make
        rw [hn]
        rfl

theorem add_ok (h : t.add id task c p now = .ok t') :
    ∃ j, Job.make id task c p now = .ok j ∧
      t' = ⟨t.instances.insert t.nextKey j, t.registered.insert id t.nextKey, t.nextKey + 1⟩ :=
  (add_free h).2

/-- A registration leaves every instance that is there as it is. -/
theorem get?_add (hs : t.Sound) (h : t.add id task c p now = .ok t')
    (hj : t.instances.get? k = some j) : t'.instances.get? k = some j := by
  obtain ⟨j', -, rfl⟩ := add_ok h
  have hk : k ≠ t.nextKey := by
    rintro rfl
    rw [hs.fresh _ (Nat.le_refl _)] at hj
    cases hj
  rw [Dict.get?_insert, if_neg hk]
  exact hj

theorem sound_add (hs : t.Sound) (h : t.add id task c p now = .ok t') : t'.Sound := by
  obtain ⟨j, -, rfl⟩ := add_ok h
  have hne : ∀ id', t.registered.get? id' ≠ some t.nextKey := fun id' hid =>
    Nat.lt_irrefl _ (hs.known id' _ hid)
  refine ⟨fun k hk => ?_, fun id' k hk => ?_, fun id₁ id₂ k h₁ h₂ => ?_⟩
  · have hlt : t.nextKey < k := hk
    rw [Dict.get?_insert, if_neg (Nat.ne_of_gt hlt)]
    exact hs.fresh k (Nat.le_of_lt hlt)
  · rw [Dict.get?_insert] at hk
    split at hk
    · rw [← Option.some.inj hk]
      exact Nat.lt_succ_self _
    · exact Nat.lt_succ_of_lt (hs.known id' k hk)
  · rw [Dict.get?_insert] at h₁ h₂
    by_cases hid₁ : id₁ = id
    · by_cases hid₂ : id₂ = id
      · rw [hid₁, hid₂]
      · rw [if_pos hid₁] at h₁
        rw [if_neg hid₂, ← h₁] at h₂
        exact absurd h₂ (hne id₂)
    · by_cases hid₂ : id₂ = id
      · rw [if_pos hid₂] at h₂
        rw [if_neg hid₁, ← h₂] at h₁
        exact absurd h₁ (hne id₁)
      · rw [if_neg hid₁] at h₁
        rw [if_neg hid₂] at h₂
        exact hs.distinct id₁ id₂ k h₁ h₂

theorem remove_ok (h : t.remove id = .ok t') :
    t' = { t with registered := t.registered.erase id } := by
  rw [remove_eq] at h
  obtain ⟨k, -, rfl⟩ := map_key?_eq_ok h
  rfl

theorem sound_remove (hs : t.Sound) (h : t.remove id = .ok t') : t'.Sound := by
  obtain rfl := remove_ok h
  refine ⟨hs.fresh, fun id' k hk => ?_, fun id₁ id₂ k h₁ h₂ => ?_⟩
  · rw [Dict.get?_erase] at hk
    split at hk
    · cases hk
    · exact hs.known id' k hk
  · rw [Dict.get?_erase] at h₁ h₂
    split at h₁
    · cases h₁
    · split at h₂
      · cases h₂
      · exact hs.distinct id₁ id₂ k h₁ h₂

/-! ## Changes of one instance -/

theorem get?_change (t : Table) (k k' : Key) (f : Job → Job) :
    (t.change k f).instances.get? k' =
      if k' = k then (t.instances.get? k).map f else t.instances.get? k' := by
  unfold change
  rw [Dict.get?_modify]

theorem sound_change (hs : t.Sound) (k : Key) (f : Job → Job) : (t.change k f).Sound := by
  refine ⟨fun k' hk' => ?_, hs.known, hs.distinct⟩
  have hk : t.nextKey ≤ k' := hk'
  rw [get?_change]
  split
  · next h => rw [← h, hs.fresh k' hk, Option.map_none]
  · exact hs.fresh k' hk

theorem setEnabled_ok {b : Bool} (h : t.setEnabled id b = .ok t') :
    ∃ k, t' = t.change k fun j => { j with enabled := b } := by
  rw [setEnabled_eq] at h
  obtain ⟨k, -, rfl⟩ := map_key?_eq_ok h
  exact ⟨k, rfl⟩

theorem setMaxConcurrent_ok {n : Nat} (h : t.setMaxConcurrent id n = .ok t') :
    0 < n ∧ ∃ k, t' = t.change k fun j => { j with maxConcurrent := n } := by
  by_cases hn : n = 0
  · subst hn
    cases h
  · rw [setMaxConcurrent_eq t id hn] at h
    obtain ⟨k, -, rfl⟩ := map_key?_eq_ok h
    exact ⟨Nat.pos_of_ne_zero hn, k, rfl⟩

/-! ## Ticks -/

theorem nodup_firing (hs : t.Sound) (now : Instant) : (t.firing now).Nodup :=
  (Dict.nodup_values hs.distinct).filter _

theorem mem_firing (h : k ∈ t.firing now) :
    ∃ j, t.instances.get? k = some j ∧ j.fires now = true := by
  unfold firing at h
  obtain ⟨-, hany⟩ := List.mem_filter.mp h
  cases hj : t.instances.get? k with
  | none =>
    rw [hj] at hany
    cases hany
  | some j =>
    rw [hj] at hany
    exact ⟨j, rfl, hany⟩

/-- **Which instances fire**: those that are registered and may. -/
theorem mem_firing_iff : k ∈ t.firing now ↔
    (∃ id, t.registered.get? id = some k) ∧
      ∃ j, t.instances.get? k = some j ∧ j.fires now = true := by
  constructor
  · intro h
    exact ⟨Dict.mem_values.mp (List.mem_filter.mp h).1, mem_firing h⟩
  · rintro ⟨hid, j, hj, hfires⟩
    refine List.mem_filter.mpr ⟨Dict.mem_values.mpr hid, ?_⟩
    rw [hj]
    exact hfires

theorem firing_lt (hs : t.Sound) (h : k ∈ t.firing now) : k < t.nextKey := by
  unfold firing at h
  obtain ⟨id, hid⟩ := Dict.mem_values.mp (List.mem_filter.mp h).1
  exact hs.known id k hid

theorem get?_begins (ks : List Key) (hks : ks.Nodup) (t : Table) (k : Key) :
    (ks.foldl (fun t k => t.change k Job.begin) t).instances.get? k =
      if k ∈ ks then (t.instances.get? k).map Job.begin else t.instances.get? k := by
  induction ks generalizing t with
  | nil => rfl
  | cons k₀ ks ih =>
    obtain ⟨hnot, hks⟩ := List.nodup_cons.mp hks
    rw [List.foldl_cons, ih hks, get?_change]
    by_cases hk : k = k₀
    · rw [hk, if_neg hnot, if_pos rfl, if_pos List.mem_cons_self]
    · rw [if_neg hk]
      simp only [List.mem_cons, hk, false_or]

/-- What a tick does to an instance. -/
theorem get?_tick (hs : t.Sound) (now : Instant) (k : Key) :
    (t.tick now).2.instances.get? k =
      if k ∈ t.firing now then (t.instances.get? k).map Job.begin else t.instances.get? k :=
  get?_begins _ (nodup_firing hs now) t k

theorem sound_tick (hs : t.Sound) (now : Instant) : (t.tick now).2.Sound := by
  unfold tick
  dsimp only
  generalize t.firing now = ks
  induction ks generalizing t with
  | nil => exact hs
  | cons k ks ih => exact ih (sound_change hs k _)

theorem nextKey_tick (t : Table) (now : Instant) : (t.tick now).2.nextKey = t.nextKey := by
  unfold tick
  dsimp only
  generalize t.firing now = ks
  induction ks generalizing t with
  | nil => rfl
  | cons k ks ih => exact ih (t.change k Job.begin)

/-- A tick registers nothing and takes nothing out. -/
theorem registered_tick (t : Table) (now : Instant) :
    (t.tick now).2.registered = t.registered := by
  unfold tick
  dsimp only
  generalize t.firing now = ks
  induction ks generalizing t with
  | nil => rfl
  | cons k ks ih => exact ih (t.change k Job.begin)

/-! ## Completions -/

/-- What the end of an enqueue makes of its instance. -/
def finished (start : Instant) (succeeded : Bool) (j : Job) : Job :=
  if succeeded then (j.advance start).1 else j.release

@[simp] theorem finished_id (start : Instant) (succeeded : Bool) (j : Job) :
    (finished start succeeded j).id = j.id := by
  cases succeeded with
  | false => rfl
  | true => exact Job.advance_id j start

/-- What the end of an enqueue does to an instance. -/
theorem get?_complete (t : Table) (k k' : Key) (start : Instant) (succeeded : Bool) :
    (t.complete k start succeeded).1.instances.get? k' =
      if k' = k then (t.instances.get? k).map (finished start succeeded)
      else t.instances.get? k' := by
  unfold complete
  cases hk : t.instances.get? k with
  | none =>
    by_cases hk' : k' = k
    · rw [if_pos hk', hk', hk, Option.map_none]
    · rw [if_neg hk']
  | some j =>
    cases succeeded <;> exact (get?_change t k k' _).trans (by rw [hk]; rfl)

theorem sound_complete (hs : t.Sound) (k : Key) (start : Instant) (succeeded : Bool) :
    (t.complete k start succeeded).1.Sound := by
  unfold complete
  cases t.instances.get? k with
  | none => exact hs
  | some j => cases succeeded <;> exact sound_change hs k _

/-- The end of an enqueue registers nothing and takes nothing out. -/
theorem registered_complete (t : Table) (k : Key) (start : Instant) (succeeded : Bool) :
    (t.complete k start succeeded).1.registered = t.registered := by
  unfold complete
  cases t.instances.get? k with
  | none => rfl
  | some j => cases succeeded <;> rfl

theorem nextKey_complete (t : Table) (k : Key) (start : Instant) (succeeded : Bool) :
    (t.complete k start succeeded).1.nextKey = t.nextKey := by
  unfold complete
  cases t.instances.get? k with
  | none => rfl
  | some j => cases succeeded <;> rfl

end Table

end TaskQueue.Schedule
