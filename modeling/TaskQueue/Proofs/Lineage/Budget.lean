import TaskQueue.Proofs.Lineage.Attempt
import TaskQueue.Proofs.Lineage.Progress
import TaskQueue.Proofs.Promotion.Promote

/-!
# The retry budget of a lineage

Along the path of one message, a handler runs at most as often as the budget allows. The invariant
is `Standing`: as long as the message is underway, every run so far has failed and was followed by a
copy that counts it, the message counts all of them, and the count is below the budget.

Results:

* `Hop.standing`, `Path.standing`: one hop, and every path, keeps the invariant;
* `Standing.runs_le`, `Standing.copies_count`, `Standing.concluded`, `Standing.spent`: what it says
  about runs, copies and ends;
* `retry_budget`: the result.
-/

namespace TaskQueue.Lineage

open Broker Engine Ledger Promotion Time Retry

variable {ν : Type} {q : Setup} {pol : Policy ν} {b b' : State} {m m₀ : Message} {st st' : Stage}
  {es es' es₁ es₂ : Exchanges ν} {first n i : Nat}

/-- `n` runs have failed, each was followed by a copy that counts it, and there was no dead letter.
Before, the task had failed `first` times. -/
structure Tally (q : Setup) (first n : Nat) (es : Exchanges ν) : Prop where
  runs : es.runs.length = n
  failed : ∀ run ∈ es.runs, run.ending ≠ .succeeded
  copies : (copies q es).map (fun m => m.header? Header.retryAttempt) =
    (List.range n).map fun k => some (first + k + 1).repr
  records : records q es = []

/-- **How a lineage stands** that has begun with the message `m₀` and `first` failures. -/
inductive Standing (q : Setup) (pol : Policy ν) (m₀ : Message) (first : Nat) :
    State → Stage → Exchanges ν → Prop where
  | underway {b : State} {st : Stage} {es : Exchanges ν} {m : Message} {n : Nat}
      (there : At q b m st) (payload : m.payload = m₀.payload)
      (prior : (Worker.priorFailures pol m).toNat = first + n) (below : first + n < budget pol)
      (tally : Tally q first n es) : Standing q pol m₀ first b st es
  | succeeded {b : State} {es₁ es₂ : Exchanges ν} {m : Message} {n : Nat}
      (below : first + n < budget pol) (tally : Tally q first n es₁)
      (last : Attempted q pol m (first + n) es₂ .succeeded) :
      Standing q pol m₀ first b .succeeded (es₁ ++ es₂)
  | givenUp {b : State} {i : Nat} {es₁ es₂ : Exchanges ν} {m record : Message} {n : Nat}
      (below : first + n < budget pol) (tally : Tally q first n es₁)
      (last : Attempted q pol m (first + n) es₂ .deadLettered)
      (recorded : records q es₂ = [record])
      (there : (b.messages q.topics.deadLetter)[i]? = some record) :
      Standing q pol m₀ first b (.givenUp i) (es₁ ++ es₂)

/-! ## Runs that fail -/

/-- A lineage begins without runs, and with one left. -/
theorem standing_start (there : At q b m₀ st) :
    Standing q pol m₀ (Worker.priorFailures pol m₀).toNat b st [] :=
  .underway (n := 0) there rfl rfl (Worker.priorFailures_lt pol m₀) ⟨rfl, nofun, rfl, rfl⟩

/-- A retry is one more failed run and one more copy, which counts it. -/
theorem Tally.retry (h : Tally q first n es) (ha : Attempted q pol m (first + n) es' .retried) :
    Tally q first (n + 1) (es ++ es') := by
  cases ha with
  | @retried run error copy ran failed again copied unrecorded payload count =>
    refine ⟨?_, ?_, ?_, ?_⟩
    · rw [Exchanges.runs_append, List.length_append, h.runs, ran]
      rfl
    · intro run' hrun
      rw [Exchanges.runs_append, ran] at hrun
      rcases List.mem_append.mp hrun with hrun | hrun
      · exact h.failed run' hrun
      · rw [List.mem_singleton.mp hrun]
        intro hend
        rw [hend] at failed
        cases failed
    · rw [copies_append, List.map_append, h.copies, copied, List.range_succ, List.map_append]
      simp only [List.map_cons, List.map_nil, count]
    · rw [records_append, h.records, unrecorded]
      rfl

theorem priorFailures_congr (h : m.header? Header.retryAttempt = m₀.header? Header.retryAttempt) :
    Worker.priorFailures pol m = Worker.priorFailures pol m₀ := by
  unfold Worker.priorFailures
  rw [h]

/-- What a promoted batch adds to the active log. -/
theorem published_promoted {topic : String} {now : Instant} {ds : List Delivery}
    (h : Promoted topic now ds es (.ok ())) :
    es.published topic = ds.map fun d => promotedCopy d.message now := by
  generalize hr : (Except.ok () : Except TransportError Unit) = r at h
  induction h with
  | nil => rfl
  | refused => cases hr
  | stuck => cases hr
  | cons d _ ih =>
    rw [List.map_cons, ← ih hr]
    simp only [Exchanges.published, List.filterMap_cons, Exchange.published?, if_pos]

/-! ## What follows for runs, copies and ends -/

/-- What an attempt that ends the lineage leaves. -/
theorem Attempted.runs_eq {o : Worker.Outcome} (h : Attempted q pol m n es o) :
    ∃ run, es.runs = [run] := by
  cases h with
  | succeeded ran => exact ⟨_, ran⟩
  | retried ran => exact ⟨_, ran⟩
  | deadLettered ran => exact ⟨_, ran⟩

theorem Tally.successes (h : Tally q first n es) : successes es = 0 := by
  refine List.countP_eq_zero.mpr fun run hrun => ?_
  simp only [decide_eq_true_eq]
  exact h.failed run hrun

/-- **A handler runs at most as often as the budget allows.** -/
theorem Standing.runs_le (h : Standing q pol m₀ first b st es) : es.runs.length ≤ budget pol := by
  cases h with
  | underway there payload prior below tally =>
    rw [tally.runs]
    omega
  | succeeded below tally last =>
    obtain ⟨run, hrun⟩ := last.runs_eq
    rw [Exchanges.runs_append, List.length_append, tally.runs, hrun, List.length_singleton]
    omega
  | givenUp below tally last =>
    obtain ⟨run, hrun⟩ := last.runs_eq
    rw [Exchanges.runs_append, List.length_append, tally.runs, hrun, List.length_singleton]
    omega

/-- **The copies count up one by one**, and stay below the number of retries. -/
theorem Standing.copies_count (h : Standing q pol m₀ first b st es) :
    ∃ n, (copies q es).map (fun m => m.header? Header.retryAttempt) =
        (List.range n).map (fun k => some (first + k + 1).repr) ∧
      first + n ≤ pol.maxRetries.toNat - 1 := by
  have hle {n : Nat} (below : first + n < budget pol) : first + n ≤ pol.maxRetries.toNat - 1 := by
    unfold budget at below
    omega
  cases h with
  | @underway _ _ m n there payload prior below tally => exact ⟨n, tally.copies, hle below⟩
  | @succeeded es₁ es₂ m n below tally last =>
    refine ⟨n, ?_, hle below⟩
    cases last with
    | succeeded ran ending uncopied =>
      rw [copies_append, uncopied, List.append_nil]
      exact tally.copies
  | @givenUp i es₁ es₂ m record n below tally last =>
    refine ⟨n, ?_, hle below⟩
    cases last with
    | deadLettered ran failed again uncopied =>
      rw [copies_append, uncopied, List.append_nil]
      exact tally.copies

/-- **How a lineage has ended**: by one success, or by one dead letter whose count is within the
budget. As long as it has not ended there is neither, and there is a run left. -/
def Concluded (q : Setup) (pol : Policy ν) (b : State) (es : Exchanges ν) : Stage → Prop
  | .succeeded => successes es = 1 ∧ records q es = []
  | .givenUp i => successes es = 0 ∧ ∃ record k, records q es = [record] ∧
      (b.messages q.topics.deadLetter)[i]? = some record ∧
      record.header? Header.retryCount = some k.repr ∧ 1 ≤ k ∧ k ≤ budget pol
  | .ready _ | .waiting _ | .held _ =>
    successes es = 0 ∧ records q es = [] ∧ es.runs.length < budget pol

theorem Standing.concluded (h : Standing q pol m₀ first b st es) : Concluded q pol b es st := by
  cases h with
  | underway there payload prior below tally =>
    have hruns : es.runs.length < budget pol := by
      rw [tally.runs]
      omega
    cases st with
    | ready i => exact ⟨tally.successes, tally.records, hruns⟩
    | waiting i => exact ⟨tally.successes, tally.records, hruns⟩
    | held d => exact ⟨tally.successes, tally.records, hruns⟩
    | succeeded => cases there
    | givenUp i => cases there
  | succeeded below tally last =>
    cases last with
    | succeeded ran ending uncopied unrecorded =>
      refine ⟨?_, ?_⟩
      · rw [successes_append, tally.successes]
        simp only [successes, ran, List.countP_singleton, ending, decide_true, if_true]
      · rw [records_append, tally.records, unrecorded]
        rfl
  | @givenUp i es₁ es₂ m record n below tally last recorded there =>
    cases last with
    | @deadLettered run error record' ran failed again uncopied recorded' count =>
      rw [recorded] at recorded'
      obtain rfl := (List.cons.inj recorded').1
      refine ⟨?_, record, first + n + 1, ?_, there, count, Nat.le_add_left 1 _, below⟩
      · have hne : run.ending ≠ .succeeded := by
          intro hend
          rw [hend] at failed
          cases failed
        rw [successes_append, tally.successes]
        simp only [successes, ran, List.countP_singleton, hne, decide_false, Bool.false_eq_true,
          if_false]
      · rw [records_append, tally.records, recorded]
        rfl

/-- **The whole budget is spent** when a lineage ends whose runs all fail in a way that permits a
retry. -/
theorem Standing.spent (h : Standing q pol m₀ 0 b st es)
    (permitted : ∀ run ∈ es.runs, ∃ error, run.ending.error? = some error ∧ Permits pol error)
    (ended : st.Ended) :
    es.runs.length = budget pol ∧ (copies q es).length = pol.maxRetries.toNat - 1 := by
  cases h with
  | underway there =>
    cases st with
    | succeeded => cases there
    | givenUp i => cases there
    | _ => cases ended
  | @succeeded es₁ es₂ m n below tally last =>
    cases last with
    | @succeeded run ran ending =>
      obtain ⟨error, herror, -⟩ := permitted run (by
        rw [Exchanges.runs_append, ran]
        exact List.mem_append_right _ List.mem_cons_self)
      rw [ending] at herror
      cases herror
  | @givenUp i es₁ es₂ m record n below tally last =>
    cases last with
    | @deadLettered run error record' ran failed again uncopied =>
      obtain ⟨error', herror, hpermits⟩ := permitted run (by
        rw [Exchanges.runs_append, ran]
        exact List.mem_append_right _ List.mem_cons_self)
      rw [failed] at herror
      obtain rfl := Option.some.inj herror
      -- the lists permit a retry, so that it was the count that forbade it
      have hcount : ¬ 0 + n + 1 < pol.maxRetries.toNat := by
        intro hlt
        rw [(Policy.retries_iff _ _ _).mpr ⟨hlt, hpermits⟩] at again
        cases again
      have hlen : (copies q es₁).length = n := by
        have := congrArg List.length tally.copies
        rw [List.length_map, List.length_map, List.length_range] at this
        exact this
      unfold budget at below ⊢
      rw [Exchanges.runs_append, List.length_append, tally.runs, ran, List.length_singleton,
        copies_append, uncopied, List.append_nil, hlen]
      omega

/-! ## Every hop -/

variable [Number.Arithmetic ν]

omit [Number.Arithmetic ν] in
/-- After a failure that is retried, the copy waits, counts the run and is below the budget. -/
theorem Standing.retried (tally : Tally q first n es)
    (ha : Attempted q pol m (first + n) es' .retried) (payload : m.payload = m₀.payload)
    (hlog : ∀ t, b'.messages t = b.messages t ++ es'.published t) :
    Standing q pol m₀ first b' (.waiting (b.messages q.topics.delayed).length) (es ++ es') := by
  have tally' := tally.retry ha
  cases ha with
  | @retried run error copy ran failed again copied unrecorded payload' count =>
    have hlt := ((Policy.retries_iff _ _ _).mp again).1
    refine .underway (m := copy) (n := n + 1) ?_ (payload'.trans payload)
      (priorFailures_of_header count hlt) ?_ tally'
    · change (b'.messages q.topics.delayed)[(b.messages q.topics.delayed).length]? = some copy
      rw [hlog, show es'.published q.topics.delayed = [copy] from copied,
        List.getElem?_concat_length]
    · exact Nat.lt_of_lt_of_le hlt (Nat.le_max_left _ _)

omit [Number.Arithmetic ν] in
/-- After a failure that is not retried, the dead letter is there. -/
theorem Standing.deadLettered (below : first + n < budget pol) (tally : Tally q first n es)
    (ha : Attempted q pol m (first + n) es' .deadLettered)
    (hlog : ∀ t, b'.messages t = b.messages t ++ es'.published t) :
    Standing q pol m₀ first b' (.givenUp (b.messages q.topics.deadLetter).length) (es ++ es') := by
  cases ha with
  | @deadLettered run error record ran failed again uncopied recorded count =>
    refine .givenUp (m := m) below tally (.deadLettered ran failed again uncopied recorded count)
      recorded ?_
    rw [hlog, show es'.published q.topics.deadLetter = [record] from recorded,
      List.getElem?_concat_length]

/-- **Every hop keeps the invariant.** -/
theorem Hop.standing {payload : Payload} (hop : Hop q pol b st es' b' st')
    (hread : Payload.ofWire m₀.payload = .ok payload) (h : Standing q pol m₀ first b st es) :
    Standing q pol m₀ first b' st' (es ++ es') := by
  cases hop with
  | @attempted _ shut i c draw token wait d _ o topics served here run fixed handled =>
    cases h with
    | @underway _ _ m n there payload' prior below tally =>
      have hm : d.message = m :=
        Option.some.inj ((message_of_received served here).symm.trans there)
      subst hm
      have ha := attempted_cases topics run fixed handled (payload'.symm ▸ hread) prior
      -- the receipt publishes nothing, so that the logs grow by what processing publishes
      have hlog (t : String) : b'.messages t = b.messages t ++ es'.published t := served.messages t
      cases o with
      | succeeded => exact .succeeded below tally ha
      | retried => exact .retried tally ha payload' hlog
      | deadLettered => exact .deadLettered below tally ha hlog
      | skipped => cases ha
      | requeued => cases ha
  | held served here run =>
    rw [List.append_nil]
    cases h with
    | underway there payload' prior below tally =>
      exact .underway (Option.some.inj ((message_of_received served here).symm.trans there))
        payload' prior below tally
  | @promoted _ shut c w w' now es₁ d k topics due run served =>
    rw [List.append_nil]
    cases h with
    | underway there payload' prior below tally =>
      obtain ⟨now', es₂, hes, -, hp⟩ := promoteDue_ends run
      obtain ⟨he, rfl⟩ := List.cons.inj hes
      obtain rfl : now = now' := by injection he
      rw [topics] at hp
      refine .underway (m := promotedCopy d.message now) ?_ ?_ ?_ below tally
      · change (b'.messages q.topics.active)[(b.messages q.topics.active).length + k]? = _
        rw [served.messages q.topics.active, List.getElem?_append_right (Nat.le_add_right _ _),
          Nat.add_sub_cancel_left]
        change (es₁.published q.topics.active)[k]? = _
        rw [published_promoted hp, List.getElem?_map, due]
        rfl
      · rw [payload_promotedCopy, there]
        exact payload'
      · rw [priorFailures_congr (header?_promotedCopy (by decide)), there]
        exact prior
  | others st grows =>
    rw [List.append_nil]
    cases h with
    | underway there payload' prior below tally =>
      exact .underway (there.of_grows grows) payload' prior below tally
    | succeeded below tally last => exact .succeeded below tally last
    | givenUp below tally last recorded there =>
      exact .givenUp below tally last recorded (grows.getElem? there)

/-- **Every path keeps the invariant.** -/
theorem Path.standing {payload : Payload} (h : Path q pol b st es b' st')
    (there : At q b m₀ st) (hread : Payload.ofWire m₀.payload = .ok payload) :
    Standing q pol m₀ (Worker.priorFailures pol m₀).toNat b' st' es := by
  induction h with
  | refl => exact standing_start there
  | tail _ hop ih => exact hop.standing hread ih

/-! ## The result -/

/-- **The lineage can go on** whenever its next component gets to it: a worker that receives the
message makes an attempt, however the handler is to end, and a promoter holds it and promotes it. -/
def GoesOn (q : Setup) (pol : Policy ν) (b : State) : Stage → Prop
  | .ready i => ∀ draw now ending d b₁,
      (∀ n, 1 ≤ n → n ≤ budget pol →
        ∃ w due, pol.backoff draw n = .ok w ∧ Worker.dueAfter now w = some due) →
      b.receive q.topics.active q.workers = (some d, b₁) →
      d.position = State.position q.topics.active i → i ≤ Text.maxNat64 →
      ∃ es b' st, Hop q pol b (.ready i) es b' st ∧
        es.runs.map (fun run => run.ending) = [ending]
  | .waiting i => ∀ d b₁, b.receive q.topics.delayed q.promoters = (some d, b₁) →
      d.position = State.position q.topics.delayed i →
      ∃ b', Hop q pol b (.waiting i) [] b' (.held d)
  | .held d => ∀ (w : Held) due now, ⟨due, d⟩ ∈ w.waiting → due ≤ now →
      (∀ v ∈ w.waiting, ∃ k ≤ Text.maxNat64,
        v.item.position = State.position q.topics.delayed k) →
      ∃ b' n, Hop q pol b (.held d) [] b' (.ready n)
  | .succeeded | .givenUp _ => True

theorem Standing.goesOn {payload : Payload} (h : Standing q pol m₀ first b st es)
    (hread : Payload.ofWire m₀.payload = .ok payload) : GoesOn q pol b st := by
  cases h with
  | underway there payload' prior below tally =>
    cases st with
    | ready i =>
      intro draw now ending d b₁ waits hr here hi
      obtain ⟨j, g, ht⟩ := State.receive_taken hr
      obtain rfl := State.position_injective (here.symm.trans ht.position)
      obtain rfl := Option.some.inj (ht.read.symm.trans there)
      exact exists_attempt hr here hi (payload'.symm ▸ hread) waits ending
    | waiting i =>
      intro d b₁ hr here
      exact exists_hold pol hr here
    | held d =>
      intro w due now hmem hdue hw
      exact exists_promotion pol b hmem hdue hw
    | succeeded => trivial
    | givenUp i => trivial
  | succeeded => trivial
  | givenUp => trivial

/-- **The retry budget of a lineage.** However the runs of the handler end, on every path of a
message that can be read: the handler runs at most as often as the budget allows; the copies count
the failures up one by one, beginning after those of the message, and stay below the number of
retries; the lineage ends with one success or one dead letter, whose count is within the budget, and
before it ends there is a run left and it can go on. A lineage that begins without a count, and
whose runs all fail in a way that permits a retry, spends the whole budget. -/
theorem retry_budget {payload : Payload} (h : Path q pol b (.ready i) es b' st)
    (there : (b.messages q.topics.active)[i]? = some m)
    (hread : Payload.ofWire m.payload = .ok payload) :
    es.runs.length ≤ budget pol ∧
    (∃ n, (copies q es).map (fun m => m.header? Header.retryAttempt) = (List.range n).map
        (fun k => some ((Worker.priorFailures pol m).toNat + k + 1).repr) ∧
      (Worker.priorFailures pol m).toNat + n ≤ pol.maxRetries.toNat - 1) ∧
    Concluded q pol b' es st ∧ GoesOn q pol b' st ∧
    (m.header? Header.retryAttempt = none →
      (∀ run ∈ es.runs, ∃ error, run.ending.error? = some error ∧ Permits pol error) → st.Ended →
      es.runs.length = budget pol ∧ (copies q es).length = pol.maxRetries.toNat - 1) := by
  have hs : Standing q pol m (Worker.priorFailures pol m).toNat b' st es := h.standing there hread
  refine ⟨hs.runs_le, hs.copies_count, hs.concluded, hs.goesOn hread, ?_⟩
  intro hnone permitted ended
  rw [priorFailures_of_none hnone] at hs
  exact hs.spent permitted ended

/-- Both runs of a task fail: a copy waits for the second one and is promoted, and then there is a
dead letter. The whole budget is spent. -/
theorem two_runs_spent :
    ∃ (q : Setup) (b b' : State) (m : Message) (es : Exchanges Rat),
      Path q Worker.twoRuns b (.ready 0) es b' (.givenUp 0) ∧
      (b.messages q.topics.active)[0]? = some m ∧ Payload.ofWire m.payload = .ok ∅ ∧
      m.header? Header.retryAttempt = none ∧
      (∀ run ∈ es.runs, ∃ error, run.ending.error? = some error ∧ Permits Worker.twoRuns error) ∧
      es.runs.length = 2 ∧ (copies q es).length = 1 ∧
      Concluded q Worker.twoRuns b' es (.givenUp 0) := by
  let q : Setup := ⟨"q", "workers", "promoters"⟩
  let p := Worker.twoRuns
  let m : Message := (⟨"t", Payload.toWire ∅, ∅⟩ : Message).setHeader Header.correlationId "a"
  let b := (∅ : State).publish q.topics.active m
  have read : Payload.ofWire m.payload = .ok ∅ := rfl
  have failed : (HandlerEnd.failed ["busy"]).error? = some "busy" := rfl
  have hactive : b.messages q.topics.active = [m] := State.messages_publish_self _ _ _
  have hdelayed : b.messages q.topics.delayed = [] :=
    State.messages_publish_of_ne q.delayed_ne_active
  have hdead : b.messages q.topics.deadLetter = [] :=
    State.messages_publish_of_ne q.deadLetter_ne_active
  have there : (b.messages q.topics.active)[0]? = some m := by rw [hactive]; rfl
  obtain ⟨due, hdue⟩ : ∃ due, Worker.dueAfter .epoch (.ofSeconds 1) = some due := ⟨_, rfl⟩
  -- the first run fails, and the message comes back
  obtain ⟨es, b₁, copy, back, ran, -, retry, logs, hdead₁, next⟩ := exists_return p
    (State.nextAt_empty _ _).publish there (Nat.zero_le _) (State.nextAt_empty _ _).publish
    (congrArg List.length hdelayed) (Nat.zero_le _) rfl read failed rfl (Worker.twoRuns_backoff id)
    hdue
  rw [hactive] at back logs
  let ready := promotedCopy copy (told due)
  -- the second one fails too, and is the last
  obtain ⟨b₂, hr, -⟩ := next.exists_receive (m := ready) (by rw [logs]; rfl)
  have prior : (Worker.priorFailures p ready).toNat = 1 := by
    refine priorFailures_of_header ?_ (by decide)
    rw [header?_promotedCopy (by decide)]
    exact retry.attempt
  have named : ready.header? Header.correlationId = some "a" := by
    rw [header?_promotedCopy (by decide)]
    exact retry.correlationId
  have read' : Payload.ofWire ready.payload = .ok ∅ := by
    rw [payload_promotedCopy, retry.payload]
    exact read
  obtain ⟨es', record, run, calm, -⟩ := Worker.exists_givenUp (.ofTopics q.topics)
    ⟨State.position q.topics.active 1, ready, 1⟩ p id .never .epoch named read' failed
    (by rw [prior]; rfl)
  have last : stageAfter q b₁ 1 .deadLettered = .givenUp 0 := by
    rw [stageAfter, hdead₁, hdead]
    rfl
  have path := back.tail
    (.of_undisturbed last rfl hr rfl run calm (serving_forward rfl (by decide)))
  have permitted : ∀ run ∈ (es ++ es').runs, ∃ error, run.ending.error? = some error ∧
      Permits p error := by
    intro run hrun
    have hend : run.ending = .failed ["busy"] := by
      rw [Exchanges.runs_append, calm.ran] at hrun
      rcases List.mem_append.mp hrun with hrun | hrun
      · exact List.mem_singleton.mp (ran ▸ List.mem_map_of_mem hrun)
      · rw [List.mem_singleton.mp hrun]
    exact ⟨"busy", hend ▸ failed, rfl, .inl rfl⟩
  obtain ⟨-, -, concluded, -, spent⟩ := retry_budget path there read
  obtain ⟨hruns, hcopies⟩ := spent rfl permitted trivial
  exact ⟨q, b, _, m, _, path, there, read, rfl, permitted, hruns, hcopies, concluded⟩

end TaskQueue.Lineage
