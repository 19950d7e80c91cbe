import TaskQueue.Proofs.Client.Enqueue
import TaskQueue.Proofs.Promotion.DueTime
import TaskQueue.Proofs.Promotion.OnTime
import TaskQueue.Proofs.Stop.NormalEnd

/-!
# When a delayed task is promoted

Whatever answers a promoter gets, it publishes nothing before the time that it was told; so a task
may run early by what the headers of its message leave out of its due time.

Results:

* `turn_turns`, `runs_inTime`: what a turn publishes is due, and so is what a run publishes;
* `exists_promoted_at`: what is due can be promoted at that very instant;
* `promoted_when_told`: **a delayed task is promoted at the told time at the earliest**, and never
  before its delay has passed exactly when the headers leave nothing out of the due time;
* `promoted_before_due`: a task that is promoted before its delay has passed.
-/

namespace TaskQueue.Promotion

open Engine Script Time Text DelayQueue

variable {ν : Type}

variable {due now t : Instant} {m : Message}

/-! ## What is published is due -/

/-- Whatever is published is due by the last reading of the clock before it. -/
def InTime (es : Exchanges ν) : Prop :=
  ∀ (es₁ : Exchanges ν) topic m x es₂, es = es₁ ++ ⟨.publish topic m, x⟩ :: es₂ →
    ∃ now, es₁.readings.getLast? = some now ∧ DueBy m now

/-- Nothing is published. -/
def Silent (es : Exchanges ν) : Prop := ∀ topic m x, ⟨.publish topic m, x⟩ ∉ es

section

variable {es es' : Exchanges ν} {c : Config} {q q' : Held} {ds : List Delivery}
  {r : Except TransportError Unit}

theorem silent_nil : Silent ([] : Exchanges ν) := fun _ _ _ => List.not_mem_nil

/-- An exchange that publishes nothing. -/
theorem silent_singleton {e : Exchange (Answer ν)}
    (h : ∀ topic m, e.request ≠ .publish topic m) : Silent [e] := by
  intro topic m x hmem
  exact h topic m (congrArg Exchange.request (List.mem_singleton.mp hmem)).symm

/-- What asks nothing of the broker publishes nothing. -/
theorem silent_of_transport (h : es.transport = []) : Silent es := by
  intro topic m x hmem
  have hasked : (⟨.publish topic m, x⟩ : Exchange (Answer ν)) ∈ es.transport :=
    List.mem_filter.mpr ⟨hmem, rfl⟩
  rw [h] at hasked
  cases hasked

theorem Silent.inTime (h : Silent es) : InTime es := by
  rintro es₁ topic m x es₂ rfl
  exact absurd (List.mem_append_right _ List.mem_cons_self) (h topic m x)

/-- What went on before does not matter. -/
theorem InTime.append (h : InTime es) (h' : InTime es') : InTime (es ++ es') := by
  intro es₁ topic m x es₂ hes
  rcases List.append_eq_append_iff.mp hes with ⟨as, rfl, has⟩ | ⟨bs, rfl, hbs⟩
  · obtain ⟨now, hnow, hdue⟩ := h' as topic m x es₂ has
    refine ⟨now, ?_, hdue⟩
    rw [Exchanges.readings_append, List.getLast?_append, hnow]
    rfl
  · cases bs with
    | nil =>
      obtain ⟨now, hnow, -⟩ := h' [] topic m x es₂ hbs.symm
      cases hnow
    | cons e bs =>
      obtain ⟨rfl, rfl⟩ := List.cons.inj hbs
      exact h es₁ topic m x bs rfl

/-- What is held under its due time. -/
def Timely (q : Held) : Prop := ∀ w ∈ q.waiting, ∀ t, dueTime? w.item.message = some t → w.due = t

theorem timely_empty : Timely ∅ := fun _ hw => nomatch hw

theorem Timely.dropDue (h : Timely q) (now : Instant) : Timely (q.dropDue now) :=
  fun w hw => h w ((List.dropWhile_sublist _).mem hw)

/-- What leaves the queue says that it is due, or does not say when. -/
theorem Timely.dueBy (h : Timely q) {d : Delivery} (hd : d ∈ q.takeDue now) :
    DueBy d.message now := by
  obtain ⟨w, hw, rfl, hdue⟩ := le_of_mem_takeDue hd
  intro t ht
  rw [← h w hw t ht]
  exact hdue

/-- A delivery is held under its due time. -/
theorem hold_timely {d : Delivery} (h : (hold q d).Ends es q') (hq : Timely q) :
    Timely q' ∧ Silent es := by
  obtain ⟨htr, -, due, rfl, hdue⟩ := hold_ends h
  constructor
  · intro w hw t ht
    rcases mem_push.mp hw with rfl | hw
    · rcases hdue with hd | ⟨hd, -⟩
      · exact Option.some.inj (hd.symm.trans ht)
      · exact nomatch hd.symm.trans ht
    · exact hq w hw t ht
  · exact silent_of_transport htr

/-- What a batch publishes are the copies of its deliveries. -/
theorem Promoted.mem_publish {active topic : String} {x : Except TransportError Unit}
    (h : Promoted active now ds es r) (hmem : ⟨.publish topic m, x⟩ ∈ es) :
    ∃ d ∈ ds, m = promotedCopy d.message now := by
  induction h with
  | nil => cases hmem
  | refused d ds e =>
    cases List.mem_singleton.mp hmem
    exact ⟨d, List.mem_cons_self, rfl⟩
  | stuck d ds e =>
    rcases List.mem_cons.mp hmem with heq | hmem
    · cases heq
      exact ⟨d, List.mem_cons_self, rfl⟩
    · cases List.mem_singleton.mp hmem
  | cons d _ ih =>
    rcases List.mem_cons.mp hmem with heq | hmem
    · cases heq
      exact ⟨d, List.mem_cons_self, rfl⟩
    · rcases List.mem_cons.mp hmem with heq | hmem
      · cases heq
      · obtain ⟨d', hd', rfl⟩ := ih hmem
        exact ⟨d', List.mem_cons_of_mem _ hd', rfl⟩

/-- **A batch is due by the reading of the clock that it begins with.** -/
theorem promoteDue_inTime (h : (promoteDue c q).Ends es (r, q')) (hq : Timely q) :
    Timely q' ∧ InTime es := by
  obtain ⟨now, es', rfl, rfl, hp⟩ := promoteDue_ends h
  refine ⟨hq.dropDue now, ?_⟩
  intro es₁ topic m x es₂ hes
  rcases List.cons_eq_append_iff.mp hes with ⟨-, heq⟩ | ⟨as, rfl, has⟩
  · cases heq
  · have hnone : Exchanges.readings as = [] := by
      have := hp.readings
      rw [has, Exchanges.readings_append] at this
      exact (List.append_eq_nil_iff.mp this).1
    have hlast : Exchanges.readings (⟨.now, now⟩ :: as : Exchanges ν) = [now] :=
      congrArg (now :: ·) hnone
    have hmem : (⟨.publish topic m, x⟩ : Exchange (Answer ν)) ∈ es' := by
      rw [has]
      exact List.mem_append_right _ List.mem_cons_self
    obtain ⟨d, hd, rfl⟩ := hp.mem_publish hmem
    refine ⟨now, by rw [hlast]; rfl, ?_⟩
    unfold DueBy
    rw [dueTime?_promotedCopy]
    exact hq.dueBy hd

/-- What is true of a turn: it publishes what is due and leaves what is held under its due time. -/
def Turns (es : Exchanges ν) (t : Turn Held Failure) : Prop :=
  InTime es ∧ ∀ q, t = .goOn q → Timely q

variable {t : Turn Held Failure}

theorem Turns.prepend (h : Turns es' t) (hs : Silent es) : Turns (es ++ es') t :=
  ⟨hs.inTime.append h.1, h.2⟩

theorem turns_ended {x : Except Failure Unit} (hs : Silent es) : Turns es (.ended x) :=
  ⟨hs.inTime, nofun⟩

theorem promoteAndGoOn_turns (h : (promoteAndGoOn c q).Ends es t) (hq : Timely q) :
    Turns es t := by
  unfold promoteAndGoOn at h
  obtain ⟨es₁, es₂, ⟨x, q'⟩, rfl, h₁, h₂⟩ := ends_bind_iff.mp h
  obtain ⟨hq', hin⟩ := promoteDue_inTime h₁ hq
  cases x with
  | ok u =>
    obtain ⟨rfl, rfl⟩ := ends_done_iff.mp h₂
    rw [List.append_nil]
    refine ⟨hin, fun q'' heq => ?_⟩
    cases heq
    exact hq'
  | error e =>
    obtain ⟨rfl, rfl⟩ := ends_done_iff.mp h₂
    rw [List.append_nil]
    exact ⟨hin, nofun⟩

/-- **A turn publishes what is due.** -/
theorem turn_turns (h : (turn c q).Ends es t) (hq : Timely q) : Turns es t := by
  unfold turn at h
  obtain ⟨es₁, es₂, wait, rfl, h₁, h₂⟩ := ends_bind_iff.mp h
  refine Turns.prepend ?_ (silent_of_transport (nextWait_ends h₁))
  simp only [request_bind, ends_ask_iff] at h₂
  obtain ⟨x, es₃, rfl, h₃⟩ := h₂
  have silent : Silent [(⟨.receive wait, x⟩ : Exchange (Answer ν))] :=
    silent_singleton (by simp)
  cases x with
  | cancelled =>
    obtain ⟨rfl, rfl⟩ := ends_done_iff.mp h₃
    exact turns_ended silent
  | nothing => exact (promoteAndGoOn_turns h₃ hq).prepend silent
  | delivery d =>
    obtain ⟨es₄, es₅, q', rfl, h₄, h₅⟩ := ends_bind_iff.mp h₃
    obtain ⟨hq', hs⟩ := hold_timely h₄ hq
    exact ((promoteAndGoOn_turns h₅ hq').prepend hs).prepend silent
  | failed e =>
    refine Turns.prepend ?_ silent
    by_cases he : e = .closed
    · simp only [he, if_true, ends_ask_iff] at h₃
      obtain ⟨y, es₄, rfl, h₄⟩ := h₃
      have hs : Silent [(⟨.isCancelled, y⟩ : Exchange (Answer ν))] :=
        silent_singleton (by simp)
      cases y with
      | true =>
        obtain ⟨rfl, rfl⟩ := ends_done_iff.mp h₄
        exact turns_ended hs
      | false =>
        obtain ⟨rfl, rfl⟩ := ends_done_iff.mp h₄
        exact turns_ended hs
    · simp only [he, if_false] at h₃
      obtain ⟨rfl, rfl⟩ := ends_done_iff.mp h₃
      exact turns_ended silent_nil

theorem opening_turns (h : (opening c).Ends es t) : Turns es t := by
  unfold opening at h
  simp only [request_bind, ends_ask_iff] at h
  obtain ⟨x, es₁, rfl, h⟩ := h
  have silent : Silent [(⟨.subscribe c.topics.delayed c.group, x⟩ : Exchange (Answer ν))] :=
    silent_singleton (by simp)
  cases x with
  | ok u =>
    obtain ⟨rfl, rfl⟩ := ends_done_iff.mp h
    refine ⟨silent.inTime, fun q heq => ?_⟩
    cases heq
    exact timely_empty
  | error e =>
    obtain ⟨rfl, rfl⟩ := ends_done_iff.mp h
    exact turns_ended silent

/-- A run publishes what is due when its scripts do. -/
theorem InTime.of_runs {x : Program ν (Turn Held Failure)} {r : Except Failure Unit}
    (h : Runs (turn c) x es r) (hx : ∀ es t, x.Ends es t → Turns es t) : InTime es := by
  induction h with
  | last h => exact (hx _ _ h).1
  | goOn h _ ih =>
    obtain ⟨hin, hgo⟩ := hx _ _ h
    exact hin.append (ih fun _ _ ht => turn_turns ht (hgo _ rfl))

/-- **Whatever a promoter publishes is due**, in every run. -/
theorem runs_inTime {r : Except Failure Unit} (h : Runs (turn c) (opening c) es r) :
    InTime es := .of_runs h fun _ _ ht => opening_turns ht

end

/-! ## The result -/

/-- No promoter publishes a copy of a message before an instant, whatever it meets. A batch reads
the clock once, before it publishes, so the last reading is that of the batch. -/
def NotBefore (ν : Type) (c : Config) (m : Message) (t : Instant) : Prop :=
  ∀ (es : Exchanges ν) r, Runs (turn c) (opening c) es r →
    ∀ (es₁ : Exchanges ν) topic copied x es₂,
      es = es₁ ++ ⟨.publish topic (promotedCopy m copied), x⟩ :: es₂ →
      ∃ now, es₁.readings.getLast? = some now ∧ t ≤ now

theorem notBefore_dueTime {c : Config} (h : dueTime? m = some t) : NotBefore ν c m t := by
  intro es r hrun es₁ topic copied x es₂ hes
  obtain ⟨now, hnow, hdue⟩ := runs_inTime hrun es₁ topic _ x es₂ hes
  exact ⟨now, hnow, hdue t (dueTime?_promotedCopy.trans h)⟩

/-- **What is due can be promoted at that very instant.** -/
theorem exists_promoted_at (ν : Type) (c : Config) (h : dueTime? m = some t) :
    ∃ es es₂ : Exchanges ν, es.readings = [t] ∧
      Runs (turn c) (opening c)
        (es ++ ⟨.publish c.topics.active (promotedCopy m t), .ok ()⟩ :: es₂) (.ok ()) := by
  let d : Delivery := ⟨default, m, 1⟩
  let first : Exchanges ν := [⟨.subscribe c.topics.delayed c.group, .ok ()⟩]
  let batch : Exchanges ν :=
    [⟨.publish c.topics.active (promotedCopy m t), .ok ()⟩, ⟨.ack d, .ok ()⟩]
  let second : Exchanges ν :=
    ⟨.receive c.pollInterval, .delivery d⟩ :: ⟨.now, t⟩ :: batch
  let last : Exchanges ν := [⟨.receive c.pollInterval, .cancelled⟩]
  have opened : (opening c : Program ν (Turn Held Failure)).Ends first (.goOn ∅) :=
    .ask _ _ (.done _)
  have promoted : (promoteDue c ((∅ : Held).push t d) : Program ν _).Ends
      (⟨.now, t⟩ :: batch) (.ok (), ∅) := promoteDue_push c t d
  have turned : (turn c ∅ : Program ν (Turn Held Failure)).Ends second (.goOn ∅) := by
    refine .ask _ _ ?_
    show (hold ∅ d >>= promoteAndGoOn c).Ends _ _
    refine ends_bind_iff.mpr ⟨[], _, _, rfl, hold_told h, ?_⟩
    exact ends_bind_iff.mpr ⟨_, [], _, (List.append_nil _).symm, promoted, .done _⟩
  have ended : (turn c ∅ : Program ν (Turn Held Failure)).Ends last (.ended (.ok ())) :=
    .ask _ _ (.done _)
  have run : Runs (turn c) (opening c) (first ++ (second ++ last)) (.ok ()) :=
    .goOn opened (.goOn turned (.last ended))
  exact ⟨first ++ [⟨.receive c.pollInterval, .delivery d⟩, ⟨.now, t⟩], ⟨.ack d, .ok ()⟩ :: last,
    rfl, run⟩

/-- A message is promoted at its due time at the earliest, and no sooner instant is safe. -/
theorem notBefore_iff (ν : Type) (c : Config) (h : dueTime? m = some t) {u : Instant} :
    NotBefore ν c m u ↔ u ≤ t := by
  constructor
  · intro hu
    obtain ⟨es, es₂, hreadings, hrun⟩ := exists_promoted_at ν c h
    obtain ⟨now, hnow, hle⟩ := hu _ _ hrun es c.topics.active t (.ok ()) es₂ rfl
    rw [hreadings] at hnow
    cases hnow
    exact hle
  · intro hle es r hrun es₁ topic copied x es₂ hes
    obtain ⟨now, hnow, ht⟩ := notBefore_dueTime h es r hrun es₁ topic copied x es₂ hes
    exact ⟨now, hnow, Instant.le_trans hle ht⟩

/-- **A delayed task is promoted at the told time at the earliest**: within the second of its due
time, and within its millisecond when the year has four digits. It is never promoted before its
delay has passed exactly when the headers leave nothing out. -/
theorem promoted_when_told {topics : Topics} {task id : String} {p : Payload} {delay : Span}
    {es : Exchanges ν} (hz : delay.isZero = false)
    (h : (Client.enqueueDelayed topics task p delay).Ends es (.ok id)) :
    ∃ now due m, es = [⟨.now, now⟩, ⟨.newId, id⟩, ⟨.publish topics.delayed m, .ok ()⟩] ∧
      now.addSpan? delay = some due ∧
      ((told due).seconds = due.seconds ∧ (told due).nanos ≤ due.nanos ∧
        (0 ≤ due.year ∧ due.year ≤ 9999 → due.nanos < (told due).nanos + nanosPerMilli)) ∧
      ∀ c, NotBefore ν c m (told due) ∧ (NotBefore ν c m due ↔ Tellable due) := by
  obtain ⟨now, due, m, hdue, -, rfl⟩ := (Client.enqueueDelayed_ok_iff hz).mp h
  refine ⟨now, due, _, rfl, hdue, told_near due, fun c => ?_⟩
  have htold := dueTime?_delayedMessage m task now due
  refine ⟨notBefore_dueTime htold, (notBefore_iff ν c htold).trans ?_⟩
  rw [← told_eq_iff]
  refine ⟨Instant.le_antisymm (told_le due), fun heq => ?_⟩
  rw [heq]
  exact Instant.le_refl due

/-! ## A second and a half, and a millisecond and a half -/

/-- A task that is put on the queue at the start of 1970. -/
theorem delayed_ends {delay : Span} {id : String} (hz : delay.isZero = false)
    (hdue : Instant.epoch.addSpan? delay = some due)
    (hm : Client.taskMessage? "resize" ∅ id = some m) :
    (Client.enqueueDelayed (.ofQueue "images") "resize" ∅ delay).Ends
      ([⟨.now, .epoch⟩, ⟨.newId, id⟩, ⟨.publish "images.delayed"
        (Client.delayedMessage m "resize" .epoch due), .ok ()⟩] : Exchanges ν) (.ok id) :=
  (Client.enqueueDelayed_ok_iff hz).mpr ⟨_, due, m, hdue, hm, rfl⟩

/-- A task that is delayed by a second and a half is not promoted before then. -/
theorem whole_millis_kept :
    ∃ (es : Exchanges Number.Double) (due : Instant) (m : Message) (x : Except TransportError Unit),
      (Client.enqueueDelayed (.ofQueue "images") "resize" ∅ (.ofMillis 1500)).Ends es (.ok "a") ∧
      ⟨.publish "images.delayed" m, x⟩ ∈ es ∧
      Instant.epoch.addSpan? (.ofMillis 1500) = some due ∧
      ∀ c, NotBefore Number.Double c m due := by
  have hz : (Span.ofMillis 1500).isZero = false := rfl
  let due : Instant := ⟨1, 500000000, by decide, by decide, by decide⟩
  have hdue : Instant.epoch.addSpan? (.ofMillis 1500) = some due := by decide +kernel
  obtain ⟨m, hm⟩ : ∃ m, Client.taskMessage? "resize" ∅ "a" = some m := ⟨_, rfl⟩
  have hends := delayed_ends (ν := Number.Double) hz hdue hm
  obtain ⟨now, due', m', hes, hdue', -, h⟩ := promoted_when_told hz hends
  cases hes
  obtain rfl : due = due' := Option.some.inj (hdue.symm.trans hdue')
  have htellable : Tellable due := by decide +kernel
  exact ⟨_, due, _, _, hends, .tail _ (.tail _ List.mem_cons_self), hdue,
    fun c => (h c).2.mpr htellable⟩

/-- **A task that is promoted before its delay has passed**: of a millisecond and a half, the
headers tell a millisecond. -/
theorem promoted_before_due :
    ∃ (delay : Span) (es : Exchanges Number.Double) (due : Instant) (m : Message)
      (x : Except TransportError Unit),
      (Client.enqueueDelayed (.ofQueue "images") "resize" ∅ delay).Ends es (.ok "a") ∧
      ⟨.publish "images.delayed" m, x⟩ ∈ es ∧ Instant.epoch.addSpan? delay = some due ∧
      ∃ (c : Config) (now : Instant) (run es₂ : Exchanges Number.Double), now < due ∧
        run.readings = [now] ∧ Runs (turn c) (opening c)
          (run ++ ⟨.publish c.topics.active (promotedCopy m now), .ok ()⟩ :: es₂) (.ok ()) := by
  let delay : Span := ⟨1500000, by decide⟩
  have hz : delay.isZero = false := rfl
  let due : Instant := ⟨0, 1500000, by decide, by decide, by decide⟩
  have hdue : Instant.epoch.addSpan? delay = some due := by decide +kernel
  have hearly : told due < due := by decide +kernel
  obtain ⟨m, hm⟩ : ∃ m, Client.taskMessage? "resize" ∅ "a" = some m := ⟨_, rfl⟩
  obtain ⟨run, es₂, hreadings, hrun⟩ := exists_promoted_at Number.Double
    (.ofTopics (.ofQueue "images")) (dueTime?_delayedMessage m "resize" .epoch due)
  exact ⟨delay, _, due, _, _, delayed_ends hz hdue hm, .tail _ (.tail _ List.mem_cons_self), hdue,
    _, told due, run, es₂, hearly, hreadings, hrun⟩

end TaskQueue.Promotion
