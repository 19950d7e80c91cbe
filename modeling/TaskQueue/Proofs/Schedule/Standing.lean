import TaskQueue.Proofs.Cron.NextRun
import TaskQueue.Proofs.Schedule.Run

/-!
# How a job stands

A job carries what has become of its enqueues: its last run is the start of the enqueue that
succeeded last, and its next run is reckoned from there. While none has succeeded, the next run is
the first one after the registration. Every enqueue of it was started by a tick at which that first
run had come. A limit of no enqueues at all is never set.

Results:

* `Standing.turn`: one event keeps the invariant;
* `standing_of_made`: it holds in every possible run;
* `due_of_single`: when a job has one enqueue under way at most, its next run has come by the tick
  that started it.
-/

namespace TaskQueue.Schedule.Run

open Time

variable {h : History} {e : Event} {k : Key} {c : Cron.Expression} {a t u n : Instant} {j j' : Job}

/-- The next run that is reckoned from an instant, if there is one. -/
def reckoned (c : Cron.Expression) (u : Instant) : Option Instant := (c.nextRun u).toOption

theorem reckoned_eq_some : reckoned c u = some n ↔ c.nextRun u = .ok n := by
  unfold reckoned
  cases c.nextRun u with
  | error e => exact ⟨nofun, nofun⟩
  | ok n' => simp [Except.toOption]

/-- The starts of all enqueues of an instance that are under way or have succeeded. -/
def starts (k : Key) (h : History) : List Instant := (after h).startsOf k ++ successes k h

/-- **How a job stands** that was registered at `a` with the schedule `c`. -/
structure Standing (k : Key) (c : Cron.Expression) (a : Instant) (h : History) (j : Job) :
    Prop where
  schedule : j.schedule = c
  lastRun : j.lastRun = (successes k h).head?
  nextRun : (successes k h ++ [a]).findSome? (reckoned c) = some j.nextRun
  inFlight : j.inFlight = ((after h).startsOf k).length
  limit : 0 < j.maxConcurrent
  ticked : ∀ t ∈ starts k h, .ticked t ∈ h
  come : ∀ n, c.nextRun a = .ok n → ∀ t ∈ starts k h, n ≤ t

/-! ## The next run -/

/-- From where the next run is reckoned. -/
theorem Standing.nextRun_from (hs : Standing k c a h j) :
    ∃ u, (u ∈ successes k h ∨ u = a) ∧ c.nextRun u = .ok j.nextRun := by
  obtain ⟨u, hu, hn⟩ := List.exists_of_findSome?_eq_some hs.nextRun
  rw [List.mem_append, List.mem_singleton] at hu
  exact ⟨u, hu, reckoned_eq_some.mp hn⟩

/-- The next run is never before the first one. -/
theorem Standing.first_le (hs : Standing k c a h j) (hn : c.nextRun a = .ok n) : n ≤ j.nextRun := by
  obtain ⟨u, hu | rfl, hj⟩ := hs.nextRun_from
  · have hle := hs.come n hn u (List.mem_append_right _ hu)
    exact Instant.le_trans hle (Instant.le_of_lt (Cron.Expression.lt_nextRun hj))
  · rw [hn] at hj
    rw [Except.ok.inj hj]
    exact Instant.le_refl _

/-! ## One event -/

/-- Which starts there are after an event: a tick may add its own, none else is new. -/
theorem mem_starts_turn (hturn : Turn k (after h) j e (after (e :: h)) j')
    (ht : t ∈ starts k (e :: h)) : t ∈ starts k h ∨ e = .ticked t ∧ j.fires t = true := by
  unfold starts at ht ⊢
  rw [List.mem_append] at ht ⊢
  cases hturn with
  | begun now fires hstarts =>
    rw [hstarts, List.mem_append, List.mem_singleton] at ht
    rcases ht with (ht | rfl) | ht
    · exact .inl (.inl ht)
    · exact .inr ⟨rfl, fires⟩
    · exact .inl (.inr ht)
  | ended t' succeeded underWay hstarts =>
    rw [hstarts] at ht
    rcases ht with ht | ht
    · exact .inl (.inl (List.mem_of_mem_erase ht))
    · cases succeeded with
      | false => exact .inl (.inr ht)
      | true =>
        rw [successes_cons_completed, List.mem_cons] at ht
        rcases ht with rfl | ht
        · exact .inl (.inl underWay)
        · exact .inl (.inr ht)
  | kept other schedule lastRun nextRun inFlight limit hstarts =>
    rw [hstarts, successes_cons_of_ne other] at ht
    exact .inl ht

/-- **One event keeps the invariant.** -/
theorem Standing.turn (hs : Standing k c a h j)
    (hturn : Turn k (after h) j e (after (e :: h)) j') : Standing k c a (e :: h) j' := by
  have hticked : ∀ t ∈ starts k (e :: h), .ticked t ∈ e :: h := by
    intro t ht
    rcases mem_starts_turn hturn ht with ht | ⟨rfl, -⟩
    · exact List.mem_cons_of_mem _ (hs.ticked t ht)
    · exact List.mem_cons_self
  have hcome : ∀ n, c.nextRun a = .ok n → ∀ t ∈ starts k (e :: h), n ≤ t := by
    intro n hn t ht
    rcases mem_starts_turn hturn ht with ht | ⟨-, hfires⟩
    · exact hs.come n hn t ht
    · exact Instant.le_trans (hs.first_le hn) (Job.fires_iff.mp hfires).2.1
  cases hturn with
  | begun now fires hstarts =>
    refine ⟨hs.schedule, hs.lastRun, hs.nextRun, ?_, hs.limit, hticked, hcome⟩
    show j.inFlight + 1 = _
    rw [hstarts, hs.inFlight, List.length_append, List.length_singleton]
  | ended t succeeded underWay hstarts =>
    have hlength :
        j.inFlight - 1 = ((after (.completed ⟨k, t⟩ succeeded :: h)).startsOf k).length := by
      rw [hstarts, List.length_erase_of_mem underWay, hs.inFlight]
    cases succeeded with
    | false => exact ⟨hs.schedule, hs.lastRun, hs.nextRun, hlength, hs.limit, hticked, hcome⟩
    | true =>
      have hj : Table.finished t true j = (j.advance t).1 := rfl
      refine ⟨?_, ?_, ?_, ?_, ?_, hticked, hcome⟩
      · rw [hj, Job.advance_schedule]
        exact hs.schedule
      · rw [hj, Job.advance_lastRun, successes_cons_completed, List.head?_cons]
      · rw [hj, Job.advance_nextRun, hs.schedule, successes_cons_completed, List.cons_append,
          List.findSome?_cons]
        show _ = some ((reckoned c t).getD j.nextRun)
        cases reckoned c t with
        | none => exact hs.nextRun
        | some n => rfl
      · rw [hj, Job.advance_inFlight]
        exact hlength
      · rw [hj, Job.advance_maxConcurrent]
        exact hs.limit
  | kept other schedule lastRun nextRun inFlight limit hstarts =>
    refine ⟨schedule.trans hs.schedule, ?_, ?_, ?_, limit hs.limit, hticked, hcome⟩
    · rw [lastRun, successes_cons_of_ne other]
      exact hs.lastRun
    · rw [nextRun, successes_cons_of_ne other]
      exact hs.nextRun
    · rw [inFlight, hstarts]
      exact hs.inFlight

/-! ## Every run -/

/-- A new job stands at its registration. -/
theorem standing_added {id task : String} {p : Payload} {tbl : Table} (hs : Sound h)
    (hadd : (after h).table.add id task c p a = .ok tbl) :
    ∃ j, (after (.added id task c p a :: h)).job? (after h).table.nextKey = some j ∧
      Standing (after h).table.nextKey c a (.added id task c p a :: h) j := by
  obtain ⟨j, hj, htbl⟩ := Table.add_ok hadd
  obtain ⟨n, hn, rfl⟩ := Job.make_ok hj
  have hafter : after (.added id task c p a :: h) = ⟨tbl, (after h).underWay⟩ := by
    show (after h).answered _ = _
    rw [hadd]
    rfl
  have hnone : starts (after h).table.nextKey (.added id task c p a :: h) = [] := by
    refine List.append_eq_nil_iff.mpr ⟨List.eq_nil_iff_forall_not_mem.mpr fun t ht => ?_, ?_⟩
    · rw [hafter] at ht
      exact Nat.lt_irrefl _ (hs.underWay _ (mem_startsOf.mp ht))
    · exact hs.successes _ (Nat.le_refl _)
  obtain ⟨hunder, hsucc⟩ := List.append_eq_nil_iff.mp hnone
  refine ⟨⟨id, task, c, p, none, n, true, 1, 0⟩, ?_, rfl, ?_, ?_, ?_, Nat.one_pos, ?_, ?_⟩
  · rw [hafter]
    subst htbl
    unfold State.job?
    rw [Dict.get?_insert, if_pos rfl]
  · rw [hsucc]
    rfl
  · rw [hsucc, List.nil_append, List.findSome?_cons, reckoned_eq_some.mpr hn]
  · rw [hunder]
    rfl
  · rw [hnone]
    intro t ht
    exact (List.not_mem_nil ht).elim
  · rw [hnone]
    intro n _ t ht
    exact (List.not_mem_nil ht).elim

/-- **The invariant holds in every possible run.** -/
theorem standing_of_made (hp : Possible h) (hm : Made k c a h) :
    ∃ j, (after h).job? k = some j ∧ Standing k c a h j := by
  induction hm with
  | now added key =>
    subst key
    exact standing_added (possible_sound hp.1) added
  | before e made ih =>
    obtain ⟨j, hj, hs⟩ := ih hp.1
    obtain ⟨j', hj', hturn⟩ := next_turn (possible_sound hp.1) hp.2 hj
    exact ⟨j', hj', hs.turn hturn⟩

/-- How a job that is there came to be as it is. -/
theorem turn_of_made (hp : Possible (e :: h)) (hm : Made k c a h) :
    ∃ j j', (after h).job? k = some j ∧ (after (e :: h)).job? k = some j' ∧
      Standing k c a h j ∧ Turn k (after h) j e (after (e :: h)) j' := by
  obtain ⟨j, hj, hs⟩ := standing_of_made hp.1 hm
  obtain ⟨j', hj', hturn⟩ := next_turn (possible_sound hp.1) hp.2 hj
  exact ⟨j, j', hj, hj', hs, hturn⟩

/-- Every start so far is at or before a tick that comes next. -/
theorem starts_le_tick (hp : Possible (.ticked n :: h)) (hs : Standing k c a h j) :
    ∀ t ∈ starts k h, t ≤ n :=
  fun t ht => hp.2 t (List.mem_filterMap.mpr ⟨.ticked t, hs.ticked t ht, rfl⟩)

/-! ## One enqueue at a time -/

/-- At most one enqueue of the instance is under way. -/
def Single (k : Key) (h : History) : Prop := ((after h).startsOf k).length ≤ 1

theorem startsOf_unmade (hs : Sound h) (hk : (after h).table.nextKey ≤ k) :
    (after h).startsOf k = [] :=
  List.eq_nil_iff_forall_not_mem.mpr fun _ ht =>
    Nat.not_le_of_lt (hs.underWay _ (mem_startsOf.mp ht)) hk

theorem single_unmade (hp : Possible h) (hk : (after h).table.nextKey ≤ k) :
    Throughout (Single k) h := by
  have hlast {h : History} (hp : Possible h) (hk : (after h).table.nextKey ≤ k) : Single k h := by
    unfold Single
    rw [startsOf_unmade (possible_sound hp) hk]
    exact Nat.zero_le 1
  induction h with
  | nil => exact hlast hp hk
  | cons e h ih => exact ⟨hlast hp hk, ih hp.1 (Nat.le_trans (nextKey_le_next (after h) e) hk)⟩

/-- When every tick that starts an enqueue finds none under way, there is one at most. -/
theorem Single.turn (h1 : Single k h) (hturn : Turn k (after h) j e (after (e :: h)) j')
    (hnone : ∀ now, e = .ticked now → j.fires now = true → (after h).startsOf k = []) :
    Single k (e :: h) := by
  unfold Single at *
  cases hturn with
  | begun now fires hstarts =>
    rw [hstarts, hnone now rfl fires]
    exact Nat.le_refl 1
  | ended t succeeded underWay hstarts =>
    rw [hstarts, List.length_erase_of_mem underWay]
    omega
  | kept other schedule lastRun nextRun inFlight limit hstarts =>
    rw [hstarts]
    exact h1

/-- The one enqueue under way was started when the next run had come, after all successes. -/
theorem due_of_single (hp : Possible h) (hm : Made k c a h) (h1 : Throughout (Single k) h) :
    ∀ j, (after h).job? k = some j → ∀ t ∈ (after h).startsOf k,
      j.nextRun ≤ t ∧ ∀ u ∈ successes k h, u ≤ t := by
  induction hm with
  | @now h id task p tbl added key =>
    intro j _ t ht
    -- a registration starts nothing
    have hnone : (after h).startsOf k = [] :=
      startsOf_unmade (possible_sound hp.1) (Nat.le_of_eq key.symm)
    have hmem : t ∈ (after h).startsOf k := ht
    rw [hnone] at hmem
    exact (List.not_mem_nil hmem).elim
  | @before h e made ih =>
    obtain ⟨j₀, j₁, hj₀, hj₁, hs, hturn⟩ := turn_of_made hp made
    intro j hj t ht
    obtain rfl : j₁ = j := Option.some.inj (hj₁.symm.trans hj)
    have hle : ((after (e :: h)).startsOf k).length ≤ 1 := h1.1
    have hle₀ : ((after h).startsOf k).length ≤ 1 := h1.2.last
    cases hturn with
    | begun now fires hstarts =>
      -- the limit leaves room for the new one alone
      rw [hstarts, List.length_append, List.length_singleton] at hle
      have hnil : (after h).startsOf k = [] := List.eq_nil_of_length_eq_zero (by omega)
      rw [hstarts, hnil, List.nil_append, List.mem_singleton] at ht
      subst ht
      exact ⟨(Job.fires_iff.mp fires).2.1,
        fun u hu => starts_le_tick hp hs u (List.mem_append_right _ hu)⟩
    | ended t' succeeded underWay hstarts =>
      have hlength := List.length_erase_of_mem underWay
      rw [← hstarts] at hlength
      have hpos := List.length_pos_of_mem ht
      omega
    | kept other schedule lastRun nextRun inFlight limit hstarts =>
      rw [hstarts] at ht
      rw [nextRun, successes_cons_of_ne other]
      exact ih hp.1 h1.2 j₀ hj₀ t ht

end TaskQueue.Schedule.Run
