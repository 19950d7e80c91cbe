import Mathlib.Data.String.Basic
import TaskQueue.Proofs.Schedule.Run

/-!
# The register of jobs

For those who use it a scheduler is a finite map from identifiers to jobs. A `Register` is such a
map. The calls that succeed make it, one after the other; a call that is refused leaves it as it is,
and a job that is removed leaves nothing in it. Since an identifier can be used again, each job has
the number of its registration, and the end of an enqueue changes the job of that number, if it is
still there.

Results:

* `Keeps.failure?_eq_some_iff`: which calls are refused, by what the register has;
* `Keeps.put`, `Keeps.drop`, `Keeps.change`, `Keeps.changeAll`: how the table is to change for the
  register to do so;
* `Keeps.next`, `keeps_register`: the table keeps the register, whatever happens;
* `Keeps.jobs_eq`, `Keeps.ascending`: the list of jobs is the register by identifiers;
* `table_is_map`: **the table is a finite map, and a refused call changes nothing.**
-/

namespace TaskQueue.Schedule.Run

open Time Text

/-! ## Registers -/

/-- A job that is registered, and which registration that was, counted from zero. -/
structure Registration where
  number : Key
  job : Job

/-- The registered jobs by their identifiers. -/
structure Register where
  entries : Dict String Registration
  /-- How many registrations there have been. -/
  made : Nat

/-- The identifier of a job that is there and is to be changed. -/
def Event.target? : Event → Option String
  | removed id | toggled id _ | limited id _ => some id
  | added .. | ticked _ | completed .. => none

/-- The identifier that a call names. -/
def Event.names? : Event → Option String
  | added id .. => some id
  | e => e.target?

namespace Register

/-- No job. -/
instance : EmptyCollection Register := ⟨⟨∅, 0⟩⟩

/-- The job under an identifier. -/
def job? (m : Register) (id : String) : Option Job := (m.entries.get? id).map Registration.job

/-- Puts a new job under its identifier. -/
def put (m : Register) (j : Job) : Register :=
  ⟨m.entries.insert j.id ⟨m.made, j⟩, m.made + 1⟩

/-- Takes a job out. -/
def drop (m : Register) (id : String) : Register := { m with entries := m.entries.erase id }

/-- Changes the job under an identifier. -/
def change (m : Register) (id : String) (f : Job → Job) : Register :=
  { m with entries := m.entries.modify id fun r => { r with job := f r.job } }

/-- Changes every job. -/
def changeAll (m : Register) (f : Registration → Job) : Register :=
  { m with entries := m.entries.mapValues fun r => { r with job := f r } }

/-- What an event that is not refused does. -/
def apply (m : Register) : Event → Register
  | .added id task c p now =>
    match c.nextRun now with
    | .ok n => m.put ⟨id, task, c, p, none, n, true, 1, 0⟩
    | .error _ => m
  | .removed id => m.drop id
  | .toggled id enabled => m.change id fun j => { j with enabled }
  | .limited id n => m.change id fun j => { j with maxConcurrent := n }
  | .ticked now => m.changeAll fun r => if r.job.fires now then r.job.begin else r.job
  | .completed e succeeded =>
    m.changeAll fun r => if r.number = e.key then Table.finished e.start succeeded r.job else r.job

end Register

/-- **Why a call is refused.** -/
inductive Refused (m : Register) : Event → Failure → Prop where
  | blank {id task c p now} (blank : isAllBlank id = true) :
      Refused m (.added id task c p now) .emptyJobId
  /-- The first run of the job is no instant. -/
  | endless {id task c p now e} (named : isAllBlank id = false) (first : c.nextRun now = .error e) :
      Refused m (.added id task c p now) (.overflow e)
  | taken {id task c p now n j} (named : isAllBlank id = false) (first : c.nextRun now = .ok n)
      (taken : m.job? id = some j) : Refused m (.added id task c p now) (.duplicateJob id)
  | unlimited {id} : Refused m (.limited id 0) .invalidConcurrency
  | unknown {e id} (target : e.target? = some id) (allowed : e ≠ .limited id 0)
      (unknown : m.job? id = none) : Refused m e (.jobNotFound id)

/-! ## Calls -/

/-- What the table answers to a call. -/
def State.answer? (s : State) : Event → Option (Except Failure Table)
  | .added id task c p now => some (s.table.add id task c p now)
  | .removed id => some (s.table.remove id)
  | .toggled id enabled => some (s.table.setEnabled id enabled)
  | .limited id n => some (s.table.setMaxConcurrent id n)
  | .ticked _ | .completed .. => none

/-- The error that a call returns. -/
def State.failure? (s : State) (e : Event) : Option Failure :=
  match s.answer? e with
  | some (.error f) => some f
  | _ => none

/-- The register that the successful operations make. -/
def register : History → Register
  | [] => ∅
  | e :: h => if (after h).failure? e = none then (register h).apply e else register h

variable {s : State} {h : History} {e : Event} {t t' : Table} {m : Register} {id task : String}
  {c : Cron.Expression} {p : Payload} {now : Instant} {f : Failure} {k : Key} {j : Job}

theorem failure?_eq_some_iff : s.failure? e = some f ↔ s.answer? e = some (.error f) := by
  unfold State.failure?
  split
  · next f' h => simp [h]
  · next h => exact ⟨nofun, fun he => absurd he (h f)⟩

/-- A call leads to the table that is answered. -/
theorem next_of_answer? {r : Except Failure Table} (h : s.answer? e = some r) :
    s.next e = s.answered r := by
  cases e with
  | ticked | completed => cases h
  | added | removed | toggled | limited =>
    obtain rfl := Option.some.inj h
    rfl

/-- **A call that is refused changes nothing.** -/
theorem next_of_failure? (h : s.failure? e = some f) : s.next e = s :=
  next_of_answer? (failure?_eq_some_iff.mp h)

/-! ## What the table keeps -/

/-- **The table keeps the register.** -/
structure Keeps (t : Table) (m : Register) : Prop where
  made : t.nextKey = m.made
  numbers : ∀ id, t.registered.get? id = (m.entries.get? id).map Registration.number
  jobs : ∀ id r, m.entries.get? id = some r → t.instances.get? r.number = some r.job
  named : ∀ id r, m.entries.get? id = some r → r.job.id = id ∧ isAllBlank id = false

namespace Keeps

variable {r : Registration}

theorem empty : Keeps ∅ ∅ where
  made := rfl
  numbers _ := rfl
  jobs _ _ hr := absurd hr (Option.some_ne_none _).symm
  named _ _ hr := absurd hr (Option.some_ne_none _).symm

theorem job? (h : Keeps t m) (id : String) : t.job? id = m.job? id := by
  unfold Table.job? Register.job?
  rw [h.numbers]
  cases hr : m.entries.get? id with
  | none => rfl
  | some r => exact h.jobs id r hr

theorem registered (h : Keeps t m) (hr : m.entries.get? id = some r) :
    t.registered.get? id = some r.number := by
  rw [h.numbers, hr]
  rfl

/-- An identifier is free in the table when it is free in the register. -/
theorem free_iff (h : Keeps t m) : t.registered.get? id = none ↔ m.job? id = none := by
  unfold Register.job?
  rw [h.numbers, Option.map_eq_none_iff, Option.map_eq_none_iff]

end Keeps

/-! ## Which calls are refused -/

/-- A call on a job that is there is refused only when there is none. -/
theorem refused_iff_unknown (target : e.target? = some id) (allowed : e ≠ .limited id 0) :
    Refused m e f ↔ m.job? id = none ∧ f = .jobNotFound id := by
  constructor
  · intro h
    cases h with
    | blank | endless | taken => cases target
    | unlimited => exact absurd (congrArg (Event.limited · 0) (Option.some.inj target)) allowed
    | unknown target' allowed' unknown =>
      obtain rfl := Option.some.inj (target'.symm.trans target)
      exact ⟨unknown, rfl⟩
  · rintro ⟨unknown, rfl⟩
    exact .unknown target allowed unknown

namespace Keeps

theorem taken_iff (h : Keeps t m) :
    t.registered.contains id = true ↔ ∃ j, m.job? id = some j := by
  rw [← Option.ne_none_iff_exists', ne_eq, ← h.free_iff]
  exact Option.isSome_iff_ne_none

theorem add_eq_error_iff (h : Keeps t m) :
    t.add id task c p now = .error f ↔ Refused m (.added id task c p now) f := by
  rw [Table.add_eq]
  constructor
  · intro ha
    split at ha
    · next blank =>
      cases ha
      exact .blank blank
    · next hnamed =>
      have named := Bool.eq_false_iff.mpr hnamed
      split at ha
      · next e first =>
        cases ha
        exact .endless named first
      · next n first =>
        split at ha
        · next htaken =>
          obtain ⟨j, hj⟩ := h.taken_iff.mp htaken
          cases ha
          exact .taken named first hj
        · cases ha
  · intro hr
    cases hr with
    | blank blank => rw [if_pos blank]
    | endless named first => simp only [named, first, Bool.false_eq_true, if_false]
    | taken named first taken =>
      simp only [named, first, h.taken_iff.mpr ⟨_, taken⟩, Bool.false_eq_true, if_false, if_true]
    | unknown target => cases target

/-- **A call is refused by what the register has.** -/
theorem failure?_eq_some_iff (h : Keeps s.table m) : s.failure? e = some f ↔ Refused m e f := by
  rw [Run.failure?_eq_some_iff]
  cases e with
  | added id task c p now => exact Option.some_inj.trans h.add_eq_error_iff
  | removed id =>
    rw [refused_iff_unknown rfl Event.noConfusion, ← h.free_iff, ← Table.map_key?_eq_error_iff,
      ← Table.remove_eq]
    exact Option.some_inj
  | toggled id b =>
    rw [refused_iff_unknown rfl Event.noConfusion, ← h.free_iff, ← Table.map_key?_eq_error_iff,
      ← Table.setEnabled_eq]
    exact Option.some_inj
  | limited id n =>
    by_cases hn : n = 0
    · subst hn
      constructor
      · intro ha
        cases ha
        exact .unlimited
      · intro hr
        cases hr with
        | unlimited => rfl
        | unknown target allowed =>
          cases target
          exact absurd rfl allowed
    · rw [refused_iff_unknown rfl (by simpa using hn), ← h.free_iff, ← Table.map_key?_eq_error_iff,
        ← Table.setMaxConcurrent_eq s.table id hn]
      exact Option.some_inj
  | ticked now => exact ⟨nofun, fun hr => by cases hr with | unknown target => cases target⟩
  | completed q succeeded =>
    exact ⟨nofun, fun hr => by cases hr with | unknown target => cases target⟩

/-! ## What successful operations do -/

theorem put (hs : t.Sound) (h : Keeps t m) (hid : j.id = id) (named : isAllBlank id = false) :
    Keeps ⟨t.instances.insert t.nextKey j, t.registered.insert id t.nextKey, t.nextKey + 1⟩
      (m.put j) := by
  subst hid
  refine ⟨congrArg (· + 1) h.made, fun id' => ?_, fun id' r hr => ?_, fun id' r hr => ?_⟩
  · unfold Register.put
    rw [Dict.get?_insert, Dict.get?_insert, h.numbers, h.made]
    split
    · rfl
    · rfl
  · unfold Register.put at hr
    rw [Dict.get?_insert] at hr
    rw [Dict.get?_insert]
    split at hr
    · cases hr
      rw [if_pos h.made.symm]
    · -- an older registration has a smaller number
      have hlt := hs.known id' r.number (h.registered hr)
      rw [if_neg (Nat.ne_of_lt hlt)]
      exact h.jobs id' r hr
  · unfold Register.put at hr
    rw [Dict.get?_insert] at hr
    split at hr
    · next hid =>
      cases hr
      exact ⟨hid.symm, hid ▸ named⟩
    · exact h.named id' r hr

theorem drop (h : Keeps t m) (id : String) :
    Keeps { t with registered := t.registered.erase id } (m.drop id) := by
  have hold {id' : String} {r : Registration} (hr : (m.drop id).entries.get? id' = some r) :
      m.entries.get? id' = some r := by
    unfold Register.drop at hr
    rw [Dict.get?_erase] at hr
    split at hr
    · cases hr
    · exact hr
  refine ⟨h.made, fun id' => ?_, fun id' r hr => h.jobs id' r (hold hr),
    fun id' r hr => h.named id' r (hold hr)⟩
  unfold Register.drop
  rw [Dict.get?_erase, Dict.get?_erase, h.numbers]
  split
  · rfl
  · rfl

/-- A change of one instance is a change of the job under its identifier. -/
theorem change (hs : t.Sound) (h : Keeps t m) {g : Job → Job} (hg : ∀ j, (g j).id = j.id)
    (hk : t.registered.get? id = some k) : Keeps (t.change k g) (m.change id g) := by
  have hget (id' : String) : (m.change id g).entries.get? id' =
      if id' = id then (m.entries.get? id).map fun r => { r with job := g r.job }
      else m.entries.get? id' := Dict.get?_modify _ _ _ _
  refine ⟨h.made, fun id' => ?_, fun id' r hr => ?_, fun id' r hr => ?_⟩
  · show t.registered.get? id' = _
    rw [hget, h.numbers]
    split
    · next hid =>
      rw [hid, Option.map_map]
      rfl
    · rfl
  · rw [hget] at hr
    rw [Table.get?_change]
    split at hr
    · next hid =>
      obtain ⟨r', hr', rfl⟩ := Option.map_eq_some_iff.mp hr
      obtain rfl := Option.some.inj (hk.symm.trans (h.registered hr'))
      rw [if_pos rfl, h.jobs id r' hr']
      rfl
    · next hid =>
      -- no other identifier has this instance
      have hne : r.number ≠ k := by
        rintro rfl
        exact hid (hs.distinct id' id _ (h.registered hr) hk)
      rw [if_neg hne]
      exact h.jobs id' r hr
  · rw [hget] at hr
    split at hr
    · next hid =>
      obtain ⟨r', hr', rfl⟩ := Option.map_eq_some_iff.mp hr
      obtain ⟨hname, hblank⟩ := h.named id r' hr'
      exact ⟨(hg _).trans (hname.trans hid.symm), hid ▸ hblank⟩
    · exact h.named id' r hr

/-- A change of the instances alone is one of every job. -/
theorem changeAll (h : Keeps t m) {g : Registration → Job} (hg : ∀ r, (g r).id = r.job.id)
    (made : t'.nextKey = t.nextKey) (same : t'.registered = t.registered)
    (changed : ∀ id r, m.entries.get? id = some r → t'.instances.get? r.number = some (g r)) :
    Keeps t' (m.changeAll g) := by
  have hget (id : String) : (m.changeAll g).entries.get? id =
      (m.entries.get? id).map fun r => { r with job := g r } := Dict.get?_mapValues _ _ _
  refine ⟨made.trans h.made, fun id => ?_, fun id r hr => ?_, fun id r hr => ?_⟩
  · rw [hget, same, h.numbers, Option.map_map]
    rfl
  · rw [hget] at hr
    obtain ⟨r', hr', rfl⟩ := Option.map_eq_some_iff.mp hr
    exact changed id r' hr'
  · rw [hget] at hr
    obtain ⟨r', hr', rfl⟩ := Option.map_eq_some_iff.mp hr
    obtain ⟨hname, hblank⟩ := h.named id r' hr'
    exact ⟨(hg r').trans hname, hblank⟩

theorem tick (hs : t.Sound) (h : Keeps t m) (now : Instant) :
    Keeps (t.tick now).2 (m.apply (.ticked now)) := by
  refine h.changeAll (fun r => ?_) (Table.nextKey_tick t now) (Table.registered_tick t now)
    fun id r hr => ?_
  · split
    · rfl
    · rfl
  · have hfires : r.number ∈ t.firing now ↔ r.job.fires now = true := by
      rw [Table.mem_firing_iff, h.jobs id r hr]
      simpa using fun _ => ⟨id, h.registered hr⟩
    rw [Table.get?_tick hs, h.jobs id r hr]
    simp only [hfires]
    split
    · rfl
    · rfl

theorem complete (h : Keeps t m) (q : Enqueue) (succeeded : Bool) :
    Keeps (t.complete q.key q.start succeeded).1 (m.apply (.completed q succeeded)) := by
  refine h.changeAll (fun r => ?_) (Table.nextKey_complete t _ _ _)
    (Table.registered_complete t _ _ _) fun id r hr => ?_
  · split
    · exact Table.finished_id _ _ _
    · rfl
  · rw [Table.get?_complete]
    split
    · next hk => rw [← hk, h.jobs id r hr, Option.map_some]
    · exact h.jobs id r hr

/-- A call that succeeds leads to a table that keeps what the call makes of the register. -/
theorem answered (hs : s.table.Sound) (h : Keeps s.table m) (ha : s.answer? e = some (.ok t)) :
    Keeps t (m.apply e) := by
  cases e with
  | added id task c p now =>
    have hadd := Option.some.inj ha
    obtain ⟨-, j, hj, rfl⟩ := Table.add_free hadd
    obtain ⟨n, hn, rfl⟩ := Job.make_ok hj
    have happly : m.apply (.added id task c p now) =
        m.put ⟨id, task, c, p, none, n, true, 1, 0⟩ := by
      unfold Register.apply
      simp only [hn]
    rw [happly]
    refine h.put hs rfl (Bool.eq_false_iff.mpr fun blank => ?_)
    rw [h.add_eq_error_iff.mpr (.blank blank)] at hadd
    cases hadd
  | removed id =>
    have hremove := (Table.remove_eq _ _).symm.trans (Option.some.inj ha)
    obtain ⟨k, -, rfl⟩ := Table.map_key?_eq_ok hremove
    exact h.drop id
  | toggled id b =>
    have hset := (Table.setEnabled_eq _ _ _).symm.trans (Option.some.inj ha)
    obtain ⟨k, hk, rfl⟩ := Table.map_key?_eq_ok hset
    exact h.change hs (fun _ => rfl) hk
  | limited id n =>
    have hn : n ≠ 0 := by
      rintro rfl
      cases ha
    have hset := (Table.setMaxConcurrent_eq _ _ hn).symm.trans (Option.some.inj ha)
    obtain ⟨k, hk, rfl⟩ := Table.map_key?_eq_ok hset
    exact h.change hs (fun _ => rfl) hk
  | ticked | completed => cases ha

/-- An operation does to the register what it should. -/
theorem next (hs : s.table.Sound) (h : Keeps s.table m) :
    Keeps (s.next e).table (if s.failure? e = none then m.apply e else m) := by
  cases ha : s.answer? e with
  | some r =>
    rw [next_of_answer? ha]
    cases r with
    | error f =>
      rw [if_neg (by simp [Run.failure?_eq_some_iff.mpr ha])]
      exact h
    | ok t =>
      rw [if_pos (by simp [State.failure?, ha])]
      exact h.answered hs ha
  | none =>
    rw [if_pos (by simp [State.failure?, ha])]
    cases e with
    | ticked now => exact h.tick hs now
    | completed q succeeded => exact h.complete q succeeded
    | added | removed | toggled | limited => cases ha

/-! ## The list of jobs -/

theorem registered_eq (h : Keeps t m) :
    t.registered = m.entries.mapValues Registration.number :=
  Dict.ext_get? fun id => by rw [h.numbers, Dict.get?_mapValues]

/-- **The jobs are listed in the order of the register.** -/
theorem jobs_eq (h : Keeps t m) : t.jobs = m.entries.values.map Registration.job := by
  unfold Table.jobs
  rw [h.registered_eq, Dict.values_mapValues, List.filterMap_map, ← List.filterMap_eq_map]
  refine List.filterMap_congr fun r hr => ?_
  obtain ⟨id, hid⟩ := Dict.mem_values.mp hr
  exact h.jobs id r hid

/-- They are listed under their identifiers. -/
theorem ids_eq (h : Keeps t m) : t.jobs.map Job.id = m.entries.keys := by
  rw [h.jobs_eq]
  unfold Dict.values Dict.keys
  rw [List.map_map, List.map_map]
  refine List.map_congr_left fun e he => ?_
  exact (h.named e.1 e.2 (Dict.mem_entries.mp he)).1

theorem ascending (h : Keeps t m) : (t.jobs.map Job.id).Pairwise (· < ·) := by
  rw [h.ids_eq]
  exact List.pairwise_map.mpr (m.entries.sorted.imp compare_lt_iff_lt.mp)

theorem mem_jobs_iff (h : Keeps t m) : j ∈ t.jobs ↔ t.job? j.id = some j := by
  rw [h.jobs_eq, h.job?, List.mem_map]
  unfold Register.job?
  rw [Option.map_eq_some_iff]
  constructor
  · rintro ⟨r, hr, rfl⟩
    obtain ⟨id, hid⟩ := Dict.mem_values.mp hr
    obtain ⟨rfl, -⟩ := h.named id r hid
    exact ⟨r, hid, rfl⟩
  · rintro ⟨r, hr, rfl⟩
    exact ⟨r, Dict.mem_values.mpr ⟨_, hr⟩, rfl⟩

theorem size_eq (h : Keeps t m) : t.size = t.jobs.length := by
  rw [h.jobs_eq]
  unfold Table.size
  rw [h.registered_eq]
  unfold Dict.size Dict.mapValues Dict.values
  rw [List.length_map, List.length_map, List.length_map]

end Keeps

/-! ## Every history -/

/-- The table is sound, whatever has happened. -/
theorem table_sound (h : History) : (after h).table.Sound := by
  induction h with
  | nil => exact Table.sound_empty
  | cons e h ih => exact sound_next ih e

/-- **The table keeps the register**, whatever has happened. -/
theorem keeps_register (h : History) : Keeps (after h).table (register h) := by
  induction h with
  | nil => exact .empty
  | cons e h ih => exact ih.next (table_sound h)

/-- A call changes the job that it names, and no other. -/
theorem Register.job?_apply {id' : String} (names : e.names? = some id) (other : id' ≠ id) :
    (m.apply e).job? id' = m.job? id' := by
  have same {d : Dict String Registration} (hd : d.get? id' = m.entries.get? id') (n : Nat) :
      (Register.mk d n).job? id' = m.job? id' := congrArg (Option.map Registration.job) hd
  cases e with
  | added id₁ task c p now =>
    obtain rfl := Option.some.inj names
    unfold Register.apply
    dsimp only
    split
    · exact same ((Dict.get?_insert _ _ _ _).trans (if_neg other)) _
    · rfl
  | removed id₁ =>
    obtain rfl := Option.some.inj names
    exact same ((Dict.get?_erase _ _ _).trans (if_neg other)) _
  | toggled id₁ | limited id₁ =>
    obtain rfl := Option.some.inj names
    exact same ((Dict.get?_modify _ _ _ _).trans (if_neg other)) _
  | ticked | completed => cases names

/-- An identifier that is taken keeps its job when another is to be registered under it. -/
theorem job?_added (taken : (after h).table.job? id = some j) :
    (after (.added id task c p now :: h)).table.job? id = some j := by
  have hk := keeps_register h
  cases ha : (after h).table.add id task c p now with
  | error f =>
    have hnext : (after h).next (.added id task c p now) = after h :=
      next_of_failure? (Run.failure?_eq_some_iff.mpr (congrArg some ha))
    show ((after h).next (.added id task c p now)).table.job? id = some j
    rw [hnext]
    exact taken
  | ok t =>
    rw [hk.job?] at taken
    rw [hk.free_iff.mp (Table.add_free ha).1] at taken
    cases taken

/-! ## The result -/

/-- **The table of a scheduler is a finite map from identifiers to jobs.** -/
structure FiniteMap (h : History) : Prop where
  /-- Under every identifier there is the job that the successful operations have made. -/
  agrees : ∀ id, (after h).table.job? id = (register h).job? id
  /-- A call is refused for what the map has, and for nothing else. -/
  refused : ∀ e f, (after h).failure? e = some f ↔ Refused (register h) e f
  /-- A call that is refused changes nothing. -/
  unchanged : ∀ e f, (after h).failure? e = some f → after (e :: h) = after h
  /-- In particular an identifier that is taken keeps its job. -/
  kept : ∀ id j task c p now, (after h).table.job? id = some j →
    (after (.added id task c p now :: h)).table.job? id = some j
  /-- A call changes the job that it names, and no other. -/
  others : ∀ e id id', e.names? = some id → id' ≠ id →
    (after (e :: h)).table.job? id' = (after h).table.job? id'
  /-- Every job is registered under its own identifier, which is not blank. -/
  named : ∀ id j, (after h).table.job? id = some j → j.id = id ∧ isAllBlank id = false
  /-- The jobs that are registered are listed, and nothing else. -/
  listed : ∀ j, j ∈ (after h).table.jobs ↔ (after h).table.job? j.id = some j
  /-- Their identifiers ascend, so that none comes twice. -/
  ascending : ((after h).table.jobs.map Job.id).Pairwise (· < ·)
  size : (after h).table.size = (after h).table.jobs.length

/-- **The table is a finite map, and a refused call changes nothing**, whatever has happened. -/
theorem table_is_map (h : History) : FiniteMap h where
  agrees := (keeps_register h).job?
  refused _ _ := (keeps_register h).failure?_eq_some_iff
  unchanged _ _ := next_of_failure?
  kept _ _ _ _ _ _ := job?_added
  others e id id' names other := by
    rw [(keeps_register (e :: h)).job?, (keeps_register h).job?]
    show (if (after h).failure? e = none then (register h).apply e else register h).job? id' = _
    split
    · exact Register.job?_apply names other
    · rfl
  named id j hj := by
    rw [(keeps_register h).job?] at hj
    obtain ⟨r, hr, rfl⟩ := Option.map_eq_some_iff.mp hj
    exact (keeps_register h).named id r hr
  listed _ := (keeps_register h).mem_jobs_iff
  ascending := (keeps_register h).ascending
  size := (keeps_register h).size_eq

/-! ## An identifier that is used again -/

/-- A job is removed while its enqueue is under way, and another is registered in its place. The
enqueue ends when a third registration has been refused. -/
def reused : History :=
  [.completed ⟨1, afterNine 60⟩ true,
    .added "digest" "send_report" Cron.Expression.everyMinute ∅ (afterNine 100),
    .added "digest" "send_digest" Cron.Expression.everyMinute ∅ (afterNine 90), .removed "digest",
    .limited "sweep" 0, .ticked (afterNine 60), .removed "report",
    .added "digest" "send_digest" Cron.Expression.everyMinute ∅ (afterNine 30),
    .added "sweep" "sweep" Cron.Expression.everyMinute ∅ (afterNine 20)]

theorem reused_is_map : FiniteMap reused ∧
    (after reused).table.jobs.map (fun j => (j.id, j.task, j.lastRun, j.inFlight)) =
      [("digest", "send_digest", none, 0), ("sweep", "sweep", none, 1)] ∧
    (after reused).failure? (.added "sweep" "sweep" Cron.Expression.everyMinute ∅ (afterNine 90)) =
      some (.duplicateJob "sweep") ∧
    after (.limited "sweep" 0 :: reused) = after reused ∧
    (after (.toggled "digest" false :: reused)).table.job? "sweep" =
      (after reused).table.job? "sweep" := by
  have hmap := table_is_map reused
  refine ⟨hmap, by decide, by decide, hmap.unchanged (.limited "sweep" 0) .invalidConcurrency rfl,
    hmap.others (.toggled "digest" false) "digest" "sweep" rfl (by decide)⟩

end TaskQueue.Schedule.Run
