import TaskQueue.Proofs.Schedule.Standing

/-!
# Whether a schedule can move backwards

Every success takes the last run and the next run of its job from the tick that started it. So the
schedule of a job moves backwards exactly when successes overtake each other: when an enqueue
succeeds after one that a later tick has started. Where the clock shows odd seconds, a success in
order may still bring an earlier next run (`InStep` says which do not). With one enqueue under way
at a time nothing can be overtaken.

Results:

* `neverBack_iff`: never backwards is the same as every success being in step with those before it;
* `inStep_iff_le`: for plain ticks that is the order of the ticks;
* `neverBack_of_single`, `single_of_limit`: a job with a limit of one never moves backwards;
* `never_back_iff_in_order`: the result;
* `overtaken_served_twice`: a run in which a slot that was served becomes due again.
-/

namespace TaskQueue.Schedule.Run

open Time

variable {h : History} {e : Event} {k : Key} {c : Cron.Expression} {a t u : Instant} {j j' : Job}

/-- The schedule of a job has not moved back from `j` to `j'`. -/
structure Forward (j j' : Job) : Prop where
  lastRun : ∀ u, j.lastRun = some u → ∃ u', j'.lastRun = some u' ∧ u ≤ u'
  nextRun : j.nextRun ≤ j'.nextRun

/-- **No event of the run has moved the schedule of an instance back.** -/
def NeverBack (k : Key) : History → Prop
  | [] => True
  | e :: h => NeverBack k h ∧
    ∀ j, (after h).job? k = some j → ∃ j', (after (e :: h)).job? k = some j' ∧ Forward j j'

/-- A success of the tick at `t` is in step with an earlier one of the tick at `u`. -/
structure InStep (c : Cron.Expression) (u t : Instant) : Prop where
  start : u ≤ t
  nextRun : ∀ n n', c.nextRun u = .ok n → c.nextRun t = .ok n' → n ≤ n'

/-! ## One event -/

theorem forward_of_eq (hl : j'.lastRun = j.lastRun) (hn : j'.nextRun = j.nextRun) :
    Forward j j' := by
  refine ⟨fun u hu => ⟨u, hl.trans hu, Instant.le_refl u⟩, ?_⟩
  rw [hn]
  exact Instant.le_refl _

/-- When a success keeps the schedule from moving back. -/
theorem forward_advance_iff (hc : j.schedule = c) :
    Forward j (j.advance t).1 ↔
      (∀ u, j.lastRun = some u → u ≤ t) ∧ ∀ n, c.nextRun t = .ok n → j.nextRun ≤ n := by
  constructor
  · rintro ⟨hlast, hnext⟩
    refine ⟨fun u hu => ?_, fun n hn => ?_⟩
    · obtain ⟨u', hu', hle⟩ := hlast u hu
      rw [Job.advance_lastRun] at hu'
      rw [Option.some.inj hu']
      exact hle
    · rw [Job.advance_nextRun, hc, hn] at hnext
      exact hnext
  · rintro ⟨hlast, hnext⟩
    refine ⟨fun u hu => ⟨t, Job.advance_lastRun j t, hlast u hu⟩, ?_⟩
    rw [Job.advance_nextRun, hc]
    cases hn : c.nextRun t with
    | error e => exact Instant.le_refl _
    | ok n => exact hnext n hn

/-- Only a success moves a schedule. -/
theorem forward_of_turn (hturn : Turn k (after h) j e (after (e :: h)) j')
    (hne : ∀ t, e ≠ .completed ⟨k, t⟩ true) : Forward j j' := by
  cases hturn with
  | begun now fires hstarts => exact forward_of_eq rfl rfl
  | ended t succeeded underWay hstarts =>
    cases succeeded with
    | true => exact absurd rfl (hne t)
    | false => exact forward_of_eq rfl rfl
  | kept other schedule lastRun nextRun => exact forward_of_eq lastRun nextRun

/-- A success that is in step with all before it moves the schedule forward. -/
theorem forward_of_inStep (hs : Standing k c a h j) (ht : t ∈ starts k h)
    (hall : ∀ u ∈ successes k h, InStep c u t) : Forward j (j.advance t).1 := by
  refine (forward_advance_iff hs.schedule).mpr ⟨fun u hu => ?_, fun n hn => ?_⟩
  · rw [hs.lastRun] at hu
    exact (hall u (List.mem_of_head? hu)).start
  · obtain ⟨u, hu | rfl, hj⟩ := hs.nextRun_from
    · exact (hall u hu).nextRun _ _ hj hn
    -- while none has succeeded the first run holds, which had come at the tick
    · exact Instant.le_trans (hs.come _ hj t ht)
        (Instant.le_of_lt (Cron.Expression.lt_nextRun hn))

/-! ## Before the registration -/

theorem job?_unmade (hs : Sound h) (hk : (after h).table.nextKey ≤ k) : (after h).job? k = none :=
  hs.table.fresh k hk

theorem neverBack_unmade (hp : Possible h) (hk : (after h).table.nextKey ≤ k) : NeverBack k h := by
  induction h with
  | nil => trivial
  | cons e h ih =>
    have hk' := Nat.le_trans (nextKey_le_next (after h) e) hk
    refine ⟨ih hp.1 hk', fun j hj => ?_⟩
    rw [job?_unmade (possible_sound hp.1) hk'] at hj
    cases hj

/-- An event that finds no job moves none back. -/
theorem neverBack_cons_unmade (hp : Possible h) (hk : (after h).table.nextKey ≤ k) (e : Event) :
    NeverBack k (e :: h) := by
  refine ⟨neverBack_unmade hp hk, fun j hj => ?_⟩
  rw [job?_unmade (possible_sound hp) hk] at hj
  cases hj

/-! ## Successes in step -/

theorem mem_successes_cons (hu : u ∈ successes k (e :: h)) :
    u ∈ successes k h ∨ e = .completed ⟨k, u⟩ true := by
  by_cases he : ∃ t, e = .completed ⟨k, t⟩ true
  · obtain ⟨t, rfl⟩ := he
    rw [successes_cons_completed, List.mem_cons] at hu
    rcases hu with rfl | hu
    · exact .inr rfl
    · exact .inl hu
  · rw [successes_cons_of_ne fun t ht => he ⟨t, ht⟩] at hu
    exact .inl hu

/-- A job that has never moved back is at or after everything that any of its successes said. -/
theorem NeverBack.ahead (hp : Possible h) (hm : Made k c a h) (hb : NeverBack k h) :
    ∀ j, (after h).job? k = some j → ∀ u ∈ successes k h,
      (∃ l, j.lastRun = some l ∧ u ≤ l) ∧ ∀ n, c.nextRun u = .ok n → n ≤ j.nextRun := by
  induction hm with
  | @now h id task p tbl added key =>
    have hnone : successes k (.added id task c p a :: h) = [] :=
      (possible_sound hp.1).successes k (Nat.le_of_eq key.symm)
    rw [hnone]
    exact fun _ _ u hu => (List.not_mem_nil hu).elim
  | @before h e made ih =>
    obtain ⟨j₀, j₁, hj₀, hj₁, hs, hturn⟩ := turn_of_made hp made
    obtain ⟨j', hj', hforward⟩ := hb.2 j₀ hj₀
    intro j hj u hu
    obtain rfl : j' = j := Option.some.inj (hj'.symm.trans hj)
    obtain rfl : j₁ = j' := Option.some.inj (hj₁.symm.trans hj')
    rcases mem_successes_cons hu with hu | rfl
    · obtain ⟨⟨l, hl, hle⟩, hnext⟩ := ih hp.1 hb.1 j₀ hj₀ u hu
      obtain ⟨l', hl', hle'⟩ := hforward.lastRun l hl
      exact ⟨⟨l', hl', Instant.le_trans hle hle'⟩,
        fun n hn => Instant.le_trans (hnext n hn) hforward.nextRun⟩
    · cases hturn with
      | ended _ _ underWay hstarts =>
        refine ⟨⟨u, Job.advance_lastRun j₀ u, Instant.le_refl u⟩, fun n hn => ?_⟩
        show n ≤ (j₀.advance u).1.nextRun
        rw [Job.advance_nextRun, hs.schedule, hn]
        exact Instant.le_refl n
      | kept other => exact absurd rfl (other u)

/-- **A schedule never moves back exactly when every success is in step** with those before it. -/
theorem neverBack_iff (hp : Possible h) (hm : Made k c a h) :
    NeverBack k h ↔ (successes k h).Pairwise fun t u => InStep c u t := by
  induction hm with
  | @now h id task p tbl added key =>
    have hk := Nat.le_of_eq key.symm
    have hnone : successes k (.added id task c p a :: h) = [] :=
      (possible_sound hp.1).successes k hk
    rw [hnone]
    exact ⟨fun _ => .nil, fun _ => neverBack_cons_unmade hp.1 hk _⟩
  | @before h e made ih =>
    obtain ⟨j, j', hj, hj', hs, hturn⟩ := turn_of_made hp made
    have hcons : NeverBack k (e :: h) ↔ NeverBack k h ∧ Forward j j' := by
      refine and_congr_right fun _ => ⟨fun hall => ?_, fun hf j₀ hj₀ => ?_⟩
      · obtain ⟨j₁, hj₁, hf⟩ := hall j hj
        rw [Option.some.inj (hj'.symm.trans hj₁)]
        exact hf
      · rw [← Option.some.inj (hj.symm.trans hj₀)]
        exact ⟨j', hj', hf⟩
    rw [hcons]
    by_cases he : ∃ t, e = .completed ⟨k, t⟩ true
    · obtain ⟨t, rfl⟩ := he
      cases hturn with
      | kept other => exact absurd rfl (other t)
      | ended _ _ underWay hstarts =>
        rw [successes_cons_completed, List.pairwise_cons, ← ih hp.1]
        constructor
        · rintro ⟨hb, hf⟩
          obtain ⟨hlast, hnext⟩ := (forward_advance_iff hs.schedule).mp hf
          refine ⟨fun u hu => ?_, hb⟩
          obtain ⟨⟨l, hl, hle⟩, hrun⟩ := hb.ahead hp.1 made j hj u hu
          exact ⟨Instant.le_trans hle (hlast l hl),
            fun n n' hn hn' => Instant.le_trans (hrun n hn) (hnext n' hn')⟩
        · rintro ⟨hall, hb⟩
          exact ⟨hb, forward_of_inStep hs (List.mem_append_left _ underWay) hall⟩
    · have hne : ∀ t, e ≠ .completed ⟨k, t⟩ true := fun t ht => he ⟨t, ht⟩
      rw [successes_cons_of_ne hne, ← ih hp.1]
      exact ⟨And.left, fun hb => ⟨hb, forward_of_turn hturn hne⟩⟩

/-- For plain instants, to be in step is to be in order. -/
theorem inStep_iff_le (hu : u.Plain) (ht : t.Plain) : InStep c u t ↔ u ≤ t :=
  ⟨InStep.start, fun hle => ⟨hle, fun _ _ hn hn' => Cron.Expression.nextRun_mono hu ht hle hn hn'⟩⟩

theorem inOrder_iff (hp : Possible h) (hm : Made k c a h) (hplain : ∀ t, .ticked t ∈ h → t.Plain) :
    ((successes k h).Pairwise fun t u => InStep c u t) ↔
      (successes k h).Pairwise fun t u => u ≤ t := by
  obtain ⟨j, -, hs⟩ := standing_of_made hp hm
  have hall : ∀ t ∈ successes k h, t.Plain := fun t ht =>
    hplain t (hs.ticked t (List.mem_append_right _ ht))
  constructor
  · exact fun hin => hin.imp InStep.start
  · exact fun hle => hle.imp_of_mem fun ht hu => (inStep_iff_le (hall _ hu) (hall _ ht)).mpr

/-! ## One enqueue at a time -/

/-- **With one enqueue at a time the schedule never moves back.** -/
theorem neverBack_of_single (hp : Possible h) (hm : Made k c a h) (h1 : Throughout (Single k) h) :
    NeverBack k h := by
  induction hm with
  | now added key => exact neverBack_cons_unmade hp.1 (Nat.le_of_eq key.symm) _
  | @before h e made ih =>
    obtain ⟨j₀, j', hj₀, hj', hs, hturn⟩ := turn_of_made hp made
    refine ⟨ih hp.1 h1.2, fun j hj => ⟨j', hj', ?_⟩⟩
    obtain rfl : j₀ = j := Option.some.inj (hj₀.symm.trans hj)
    by_cases he : ∃ t, e = .completed ⟨k, t⟩ true
    · obtain ⟨t, rfl⟩ := he
      cases hturn with
      | kept other => exact absurd rfl (other t)
      | ended _ _ underWay hstarts =>
        obtain ⟨hdue, hpast⟩ := due_of_single hp.1 made h1.2 j₀ hj₀ t underWay
        refine (forward_advance_iff hs.schedule).mpr ⟨fun u hu => ?_, fun n hn => ?_⟩
        · rw [hs.lastRun] at hu
          exact hpast u (List.mem_of_head? hu)
        · exact Instant.le_trans hdue (Instant.le_of_lt (Cron.Expression.lt_nextRun hn))
    · exact forward_of_turn hturn fun t ht => he ⟨t, ht⟩

/-- The limit of an instance is one. -/
def LimitOne (k : Key) (h : History) : Prop :=
  ∀ j, (after h).job? k = some j → j.maxConcurrent ≤ 1

instance (k : Key) : DecidablePred (LimitOne k) := fun h =>
  inferInstanceAs (Decidable (∀ j ∈ (after h).job? k, j.maxConcurrent ≤ 1))

/-- A limit of one is kept to. -/
theorem single_of_limit (hp : Possible h) (hm : Made k c a h) (hlimit : Throughout (LimitOne k) h) :
    Throughout (Single k) h := by
  induction hm with
  | @now h id task p tbl added key =>
    have hall := single_unmade hp.1 (Nat.le_of_eq key.symm)
    exact ⟨hall.last, hall⟩
  | @before h e made ih =>
    obtain ⟨j, j', hj, hj', hs, hturn⟩ := turn_of_made hp made
    have hall := ih hp.1 hlimit.2
    refine ⟨hall.last.turn hturn fun now _ hfires => ?_, hall⟩
    have hfree := (Job.fires_iff.mp hfires).2.2
    have hmax := hlimit.2.last j hj
    rw [hs.inFlight] at hfree
    exact List.eq_nil_of_length_eq_zero (by omega)

/-! ## The result -/

/-- **When a schedule never moves back.** Exactly when every success is in step with those before
it. For plain ticks this means that the enqueues succeed in the order of the ticks that started
them, and with a limit of one they do. As long as the schedule has not moved back, the next run is
at or after that of every success, so that no slot that was served is due again. -/
theorem never_back_iff_in_order (hp : Possible h) (hm : Made k c a h) :
    (NeverBack k h ↔ (successes k h).Pairwise fun t u => InStep c u t) ∧
      ((∀ t, .ticked t ∈ h → t.Plain) →
        (NeverBack k h ↔ (successes k h).Pairwise fun t u => u ≤ t)) ∧
      (Throughout (LimitOne k) h → NeverBack k h) ∧
      (NeverBack k h → ∀ j, (after h).job? k = some j →
        ∀ u ∈ successes k h, ∀ n, c.nextRun u = .ok n → u < n ∧ n ≤ j.nextRun) := by
  refine ⟨neverBack_iff hp hm, fun hplain => ?_, fun hlimit => ?_, fun hb j hj u hu n hn => ?_⟩
  · rw [neverBack_iff hp hm]
    exact inOrder_iff hp hm hplain
  · exact neverBack_of_single hp hm (single_of_limit hp hm hlimit)
  · exact ⟨Cron.Expression.lt_nextRun hn, (hb.ahead hp hm j hj u hu).2 n hn⟩

/-! ## Two enqueues at a time -/

/-- A job for every minute has two enqueues under way, of 9:01 and of 9:02. -/
def bothUnderWay : History :=
  [.ticked (afterNine 120), .ticked (afterNine 60), .limited "digest" 2,
    .added "digest" "send_digest" Cron.Expression.everyMinute ∅ (afterNine 30)]

/-- They succeed in the order of their ticks. -/
def keptOrder : History :=
  .completed ⟨0, afterNine 120⟩ true :: .completed ⟨0, afterNine 60⟩ true :: bothUnderWay

/-- With a limit of one the first has to end before the second is started. -/
def oneByOne : History :=
  [.completed ⟨0, afterNine 120⟩ true, .ticked (afterNine 120), .completed ⟨0, afterNine 60⟩ true,
    .ticked (afterNine 60),
    .added "digest" "send_digest" Cron.Expression.everyMinute ∅ (afterNine 30)]

/-- The later one succeeds first. -/
def overtaken : History :=
  .completed ⟨0, afterNine 60⟩ true :: .completed ⟨0, afterNine 120⟩ true :: bothUnderWay

theorem made_bothUnderWay : Made 0 Cron.Expression.everyMinute (afterNine 30) bothUnderWay :=
  .before _ (.before _ (.before _ (.now rfl rfl)))

theorem plain_bothUnderWay : ∀ t, .ticked t ∈ bothUnderWay → t.Plain := by
  intro t ht
  simp only [bothUnderWay, List.mem_cons, Event.ticked.injEq, reduceCtorEq, List.not_mem_nil,
    or_false] at ht
  rcases ht with rfl | rfl <;> decide

theorem keptOrder_never_back :
    Possible keptOrder ∧ Made 0 Cron.Expression.everyMinute (afterNine 30) keptOrder ∧
      (∀ t, .ticked t ∈ keptOrder → t.Plain) ∧ NeverBack 0 keptOrder ∧
      Possible oneByOne ∧ Made 0 Cron.Expression.everyMinute (afterNine 30) oneByOne ∧
      Throughout (LimitOne 0) oneByOne ∧ NeverBack 0 oneByOne := by
  have hp : Possible keptOrder := by decide
  have hm : Made 0 Cron.Expression.everyMinute (afterNine 30) keptOrder :=
    .before _ (.before _ made_bothUnderWay)
  have hplain : ∀ t, .ticked t ∈ keptOrder → t.Plain := by
    intro t ht
    rcases List.mem_cons.mp ht with ht | ht
    · cases ht
    · rcases List.mem_cons.mp ht with ht | ht
      · cases ht
      · exact plain_bothUnderWay t ht
  have horder : (successes 0 keptOrder).Pairwise fun t u => u ≤ t := by decide
  have hp' : Possible oneByOne := by decide
  have hm' : Made 0 Cron.Expression.everyMinute (afterNine 30) oneByOne :=
    .before _ (.before _ (.before _ (.before _ (.now rfl rfl))))
  have hlimit : Throughout (LimitOne 0) oneByOne := by decide
  exact ⟨hp, hm, hplain, ((never_back_iff_in_order hp hm).2.1 hplain).mpr horder, hp', hm', hlimit,
    (never_back_iff_in_order hp' hm').2.2.1 hlimit⟩

/-- **A slot that was served becomes due again** when an enqueue is overtaken: the slot of 9:02 at
9:02:30. -/
theorem overtaken_served_twice :
    Possible overtaken ∧ ¬ NeverBack 0 overtaken ∧ afterNine 120 ∈ successes 0 overtaken ∧
      ((after overtaken).job? 0).map (fun j => (j.lastRun, j.nextRun)) =
        some (some (afterNine 60), afterNine 120) ∧
      (after overtaken).table.firing (afterNine 150) = [0] := by
  have hp : Possible overtaken := by decide
  have hm : Made 0 Cron.Expression.everyMinute (afterNine 30) overtaken :=
    .before _ (.before _ made_bothUnderWay)
  refine ⟨hp, fun hb => ?_, by decide, by decide, by decide⟩
  have hin := (neverBack_iff hp hm).mp hb
  have hle := ((List.pairwise_cons.mp hin).1 (afterNine 120) (by decide)).start
  exact absurd hle (by decide)

end TaskQueue.Schedule.Run
