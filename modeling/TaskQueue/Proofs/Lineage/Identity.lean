import TaskQueue.Proofs.Message.Copies
import TaskQueue.Proofs.Promotion.Run
import TaskQueue.Proofs.Time.Rfc3339
import TaskQueue.Proofs.Worker.Resolution

/-!
# A task keeps its identity

A message that fails goes on as a copy of a copy. A `Journey` follows it over any transport that
does not fail: from an attempt to a copy that waits, from there to a promoted copy and to the next
attempt, until there is a success or a dead letter. Workers, promoters and policies may be others at
every move.

What the copies have in common is rebuilt at each move, from headers. The identifier that the first
attempt was answered is in every copy, so no other is asked for. The time of the first reception is
written with milliseconds, read back, and written again as it was (`Instant.read?_renderMillis`).

Results:

* `course_keeps`, `Promoted.eq_promotedCopy`: what one move hands on;
* `Journey.kept`: what every journey hands on;
* `identity_kept`: the result.
-/

namespace TaskQueue.Promotion

open Engine Time

variable {ν : Type} {topic t : String} {now : Instant} {ds : List Delivery} {es : Exchanges ν}
  {r : Except TransportError Unit} {copy : Message} {d : Delivery}

/-- What was published right before a delivery was acknowledged is its promoted copy. -/
theorem Promoted.eq_promotedCopy (h : Promoted topic now ds es r)
    (sent : ([⟨.publish t copy, .ok ()⟩, ⟨.ack d, .ok ()⟩] : Exchanges ν) <:+: es) :
    copy = promotedCopy d.message now := by
  induction h with
  | nil => simp at sent
  | refused d' ds e => exact absurd sent.length_le (by simp)
  | stuck d' ds e =>
    cases sent.eq_of_length rfl
  | cons d' h ih =>
    rcases List.infix_cons_iff.mp sent with first | sent
    · obtain ⟨hpublish, first⟩ := List.cons_prefix_cons.mp first
      obtain ⟨hack, -⟩ := List.cons_prefix_cons.mp first
      cases hpublish
      cases hack
      rfl
    · rcases List.infix_cons_iff.mp sent with second | sent
      · cases (List.cons_prefix_cons.mp second).1
      · exact ih sent

end TaskQueue.Promotion

namespace TaskQueue.Lineage

open Engine Promotion Retry Time Worker

variable {ν : Type}

/-! ## Journeys -/

/-- Where a message is, and as which copy. -/
inductive Place where
  | ready (m : Message)
  | waiting (m : Message)
  | succeeded
  | givenUp (m : Message)

/-- Where an attempt leaves the message: nowhere, or where its copy was published. -/
inductive Leaves (c : Worker.Config) (es : Exchanges ν) : Worker.Outcome → Place → Prop
  | succeeded : Leaves c es .succeeded .succeeded
  | retried {copy : Message} (sent : ⟨.publish c.topics.delayed copy, .ok ()⟩ ∈ es) :
      Leaves c es .retried (.waiting copy)
  | deadLettered {copy : Message} (sent : ⟨.publish c.topics.deadLetter copy, .ok ()⟩ ∈ es) :
      Leaves c es .deadLettered (.givenUp copy)

/-- **One move of a message**, with the exchanges of the worker, if it is one's turn. A worker that
has no handler for the task moves nothing. -/
inductive Move [Number.Arithmetic ν] : Place → Exchanges ν → Place → Prop
  | attempted {c : Worker.Config} {draw : Draw ν} {token : CancelToken} {d : Delivery}
      {es : Exchanges ν} {o : Worker.Outcome} {place : Place}
      (run : (process c draw token d).Ends es (.ok o)) (leaves : Leaves c es o place) :
      Move (.ready d.message) es place
  /-- A promoter publishes the copy of a delivery that is due, and acknowledges the delivery. -/
  | promoted {c : Promotion.Config} {w w' : Held} {d : Delivery} {es : Exchanges ν}
      {copy : Message} (run : (promoteDue c w).Ends es (.ok (), w'))
      (sent : ([⟨.publish c.topics.active copy, .ok ()⟩, ⟨.ack d, .ok ()⟩] : Exchanges ν) <:+: es) :
      Move (.waiting d.message) [] (.ready copy)

/-- **A journey of a message**, with the exchanges of the workers, the places that it came to, and
where it is now. -/
inductive Journey [Number.Arithmetic ν] (m₀ : Message) :
    Exchanges ν → List Place → Place → Prop
  | start : Journey m₀ [] [] (.ready m₀)
  | move {es es' : Exchanges ν} {places : List Place} {place place' : Place}
      (h : Journey m₀ es places place) (move : Move place es' place') :
      Journey m₀ (es ++ es') (places ++ [place']) place'

/-! ## What copies have in common -/

/-- The headers that a worker or a promoter sets. -/
def written : List String := retryHeaders ++ deadLetterHeaders

/-- The copy is the message but for such headers, with the identifier and the time of the first
reception. -/
structure Carries (m₀ : Message) (id : String) (first : Instant) (copy : Message) : Prop
    extends SameBut written m₀ copy where
  correlationId : copy.header? Header.correlationId = some id
  firstSeenAt : (copy.header? Header.firstSeenAt).bind Instant.read? = some first.floorMilli

/-- The dead letter is the message but for such headers, with the identifier, and with a trail that
has the time of the first reception. -/
structure Records (m₀ : Message) (id : String) (first : Instant) (copy : Message) : Prop
    extends SameBut written m₀ copy where
  correlationId : copy.header? Header.correlationId = some id
  metadata : ∃ t : Trail, copy.header? Header.metadata = some t.render ∧ t.correlationId = id ∧
    t.firstSeen.floorMilli = first.floorMilli

/-- The copy at the place has the identity of the message. -/
def Keeps (m₀ : Message) (id : String) (first : Instant) : Place → Prop
  | .ready m | .waiting m => Carries m₀ id first m
  | .succeeded => True
  | .givenUp m => Records m₀ id first m

/-- The handler was called for the task, with the payload and the identifier. -/
structure CalledFor (m₀ : Message) (payload : Payload) (id : String) (run : TaskRun) : Prop where
  task : run.context.task = m₀.key
  payload : run.payload = payload
  correlationId : run.context.correlationId = id

section

variable {m₀ m copy : Message} {id : String} {first seen now : Instant}

theorem retryHeaders_subset : retryHeaders ⊆ written := List.subset_append_left _ _

theorem deadLetterHeaders_subset : deadLetterHeaders ⊆ written := List.subset_append_right _ _

theorem Carries.promoted (h : Carries m₀ id first m) :
    Carries m₀ id first (promotedCopy m now) where
  toSameBut :=
    have same : SameBut [Header.promotedAt] m (promotedCopy m now) :=
      ⟨rfl, rfl, fun name hname => header?_promotedCopy (List.ne_of_not_mem_cons hname)⟩
    h.toSameBut.trans same (List.Subset.refl _) (by decide)
  correlationId := by
    rw [header?_promotedCopy (by decide)]
    exact h.correlationId
  firstSeenAt := by
    rw [header?_promotedCopy (by decide)]
    exact h.firstSeenAt

end

/-! ## Attempts -/

section

variable [Number.Arithmetic ν] {c : Worker.Config} {draw : Draw ν} {token : CancelToken}
  {d : Delivery} {p : Policy ν} {id : String} {first seen : Instant} {es : Exchanges ν}
  {o : Worker.Outcome} {place : Place} {m₀ : Message} {payload : Payload}

omit [Number.Arithmetic ν] in
/-- What was published is known from what was asked of the broker. -/
theorem eq_of_sent {t t' : String} {copy copy' : Message}
    (hes : es.transport = [⟨.publish t copy, .ok ()⟩, ⟨.ack d, .ok ()⟩])
    (sent : ⟨.publish t' copy', .ok ()⟩ ∈ es) : copy' = copy := by
  have hmem : ⟨.publish t' copy', .ok ()⟩ ∈ es.transport := List.mem_filter.mpr ⟨sent, rfl⟩
  rw [hes] at hmem
  exact ((Routed.acked (.ok ())).eq_of_mem hmem).2

/-- **What an attempt hands on**: the copy, and the call of the handler. -/
theorem course_keeps (h : Course c draw token d p id seen es o) (leaves : Leaves c es o place)
    (same : SameBut written m₀ d.message) (hread : Payload.ofWire d.message.payload = .ok payload)
    (hseen : seen.floorMilli = first.floorMilli) (years : 0 ≤ seen.year ∧ seen.year ≤ 9999) :
    Keeps m₀ id first place ∧ ∀ run ∈ es.runs, CalledFor m₀ payload id run := by
  have called {payload' : Payload} {ending : HandlerEnd}
      (read : Payload.ofWire d.message.payload = .ok payload')
      (ran : es.runs = [⟨contextOf p token d id, payload', ending⟩]) :
      ∀ run ∈ es.runs, CalledFor m₀ payload id run := by
    rw [hread] at read
    rw [ran, List.forall_mem_singleton]
    exact ⟨same.key, (Except.ok.inj read).symm, rfl⟩
  cases leaves with
  | succeeded =>
    cases h with
    | succeeded read ran sent => exact ⟨trivial, called read ran⟩
  | retried sent =>
    cases h with
    | retried read ran failed again wait clock onTime written hes =>
      obtain rfl := eq_of_sent hes sent
      refine ⟨⟨same.trans written.toSameBut (List.Subset.refl _) retryHeaders_subset,
        written.correlationId, ?_⟩, called read ran⟩
      rw [written.firstSeenAt, Option.bind_some, Instant.read?_renderMillis years.1 years.2, hseen]
  | deadLettered sent =>
    cases h with
    | unreadable unread =>
      rw [hread] at unread
      cases unread
    | givenUp read ran failed again clock written hes =>
      obtain rfl := eq_of_sent hes sent
      obtain ⟨t, trail, -, hmetadata⟩ := written.metadata
      refine ⟨⟨same.trans written.toSameBut (List.Subset.refl _) deadLetterHeaders_subset,
        written.correlationId, t, hmetadata, trail.correlationId, ?_⟩, called read ran⟩
      rw [trail.firstSeen, hseen]

end

/-! ## Journeys keep the identity -/

section

variable [Number.Arithmetic ν] {m₀ : Message} {payload : Payload} {id : String} {first : Instant}
  {es es' : Exchanges ν} {places : List Place} {place place' : Place}

/-- **The identity along a journey** that has begun: the time of the first reception, the
identifier, what the handler was called for, and what the copies have in common. -/
structure Kept (m₀ : Message) (payload : Payload) (id : String) (first : Instant)
    (es : Exchanges ν) (places : List Place) : Prop where
  received : es.readings.head? = some first
  identified : (m₀.header? Header.correlationId = some id ∧ es.newIds = []) ∨
    (m₀.header? Header.correlationId = none ∧ es.newIds = [id])
  called : ∀ run ∈ es.runs, CalledFor m₀ payload id run
  kept : ∀ place ∈ places, Keeps m₀ id first place

/-- The first attempt sets the identity. -/
theorem Move.begins (h : Move (.ready m₀) es place)
    (hread : Payload.ofWire m₀.payload = .ok payload)
    (hnew : m₀.header? Header.firstSeenAt = none)
    (years : ∀ t, ⟨.now, t⟩ ∈ es → 0 ≤ t.year ∧ t.year ≤ 9999) :
    ∃ id first, Kept m₀ payload id first es [place] ∧ Keeps m₀ id first place := by
  generalize hready : Place.ready m₀ = before at h
  cases h with
  | promoted run sent => cases hready
  | @attempted c draw token d es o place run leaves =>
    cases hready
    obtain ⟨p, id, first, es', hes, -, hid, hprocessed⟩ := process_begins run
    have hseen : firstSeen d.message first = first := by
      unfold firstSeen
      rw [hnew]
      rfl
    have hyear : 0 ≤ first.year ∧ first.year ≤ 9999 := years first (hes ▸ .tail _ (.head _))
    rw [hseen] at hprocessed
    obtain ⟨hkeeps, hcalled⟩ := course_keeps hprocessed.course leaves ⟨rfl, rfl, fun _ _ => rfl⟩
      hread rfl hyear
    refine ⟨id, first, ⟨?_, hid, hcalled, List.forall_mem_singleton.mpr hkeeps⟩, hkeeps⟩
    rw [hes]
    rfl

/-- **Every other move keeps it.** -/
theorem Move.goesOn (h : Move place es place') (hplace : Keeps m₀ id first place)
    (hread : Payload.ofWire m₀.payload = .ok payload)
    (years : 0 ≤ first.year ∧ first.year ≤ 9999) :
    Keeps m₀ id first place' ∧ (∀ run ∈ es.runs, CalledFor m₀ payload id run) ∧
      es.newIds = [] := by
  cases h with
  | promoted run sent =>
    obtain ⟨now, es', rfl, -, hpromoted⟩ := promoteDue_ends run
    have hcarries : Carries m₀ id first _ := hplace
    rcases List.infix_cons_iff.mp sent with hfirst | sent
    · cases (List.cons_prefix_cons.mp hfirst).1
    · rw [hpromoted.eq_promotedCopy sent]
      exact ⟨hcarries.promoted, nofun, rfl⟩
  | @attempted c draw token d es o place run leaves =>
    have hcarries : Carries m₀ id first d.message := hplace
    obtain ⟨p, id', receivedAt, es', hes, -, hid, hprocessed⟩ := process_begins run
    have hseen : firstSeen d.message receivedAt = first.floorMilli := by
      unfold firstSeen
      rw [hcarries.firstSeenAt]
      rfl
    obtain ⟨rfl, hnone⟩ : id' = id ∧ es.newIds = [] := by
      rcases hid with ⟨hid, hnone⟩ | ⟨hid, -⟩
      · exact ⟨Option.some.inj (hid.symm.trans hcarries.correlationId), hnone⟩
      · rw [hcarries.correlationId] at hid
        cases hid
    rw [hseen] at hprocessed
    obtain ⟨hkeeps, hcalled⟩ := course_keeps hprocessed.course leaves hcarries.toSameBut
      (hcarries.payload ▸ hread) (Instant.floorMilli_floorMilli first) years
    exact ⟨hkeeps, hcalled, hnone⟩

/-- **A journey that has begun keeps the identity** that its first attempt has set. -/
theorem Journey.kept (h : Journey m₀ es places place)
    (hread : Payload.ofWire m₀.payload = .ok payload)
    (hnew : m₀.header? Header.firstSeenAt = none)
    (years : ∀ t, ⟨.now, t⟩ ∈ es → 0 ≤ t.year ∧ t.year ≤ 9999) :
    (es = [] ∧ places = [] ∧ place = .ready m₀) ∨
      ∃ id first, Kept m₀ payload id first es places ∧ Keeps m₀ id first place := by
  induction h with
  | start => exact .inl ⟨rfl, rfl, rfl⟩
  | @move es es' places place place' h move ih =>
    refine .inr ?_
    have years₁ (t : Instant) (ht : ⟨.now, t⟩ ∈ es) := years t (List.mem_append_left _ ht)
    have years₂ (t : Instant) (ht : ⟨.now, t⟩ ∈ es') := years t (List.mem_append_right _ ht)
    rcases ih years₁ with ⟨rfl, rfl, rfl⟩ | ⟨id, first, hkept, hplace⟩
    · exact move.begins hread hnew years₂
    · have hfirst := Exchanges.mem_of_mem_readings (List.mem_of_head? hkept.received)
      obtain ⟨hkeeps, hcalled, hnone⟩ := move.goesOn hplace hread (years₁ first hfirst)
      refine ⟨id, first, ⟨?_, ?_, ?_, ?_⟩, hkeeps⟩
      · rw [Exchanges.readings, List.filterMap_append, List.head?_append]
        exact congrArg (Option.or · _) hkept.received
      · rw [Exchanges.newIds_append, hnone, List.append_nil]
        exact hkept.identified
      · rw [Exchanges.runs_append]
        exact List.forall_mem_append.mpr ⟨hkept.called, hcalled⟩
      · exact List.forall_mem_append.mpr ⟨hkept.kept, List.forall_mem_singleton.mpr hkeeps⟩

/-- **A task keeps its identity through every retry.** A message that can be read and that has no
time of a first reception yet keeps, on every journey, the identifier and the time that the first
attempt has found; each run of a handler gets its task, its payload and this identifier. -/
theorem identity_kept (h : Journey m₀ es places place)
    (hread : Payload.ofWire m₀.payload = .ok payload)
    (hnew : m₀.header? Header.firstSeenAt = none)
    (years : ∀ t, ⟨.now, t⟩ ∈ es → 0 ≤ t.year ∧ t.year ≤ 9999) :
    (es = [] ∧ places = []) ∨ ∃ id first, Kept m₀ payload id first es places := by
  rcases h.kept hread hnew years with ⟨hes, hplaces, -⟩ | ⟨id, first, hkept, -⟩
  · exact .inl ⟨hes, hplaces⟩
  · exact .inr ⟨id, first, hkept⟩

end

/-- The identifier that the first worker was answered is in the dead letter that the second one
writes, after the copy has waited and was promoted. -/
theorem dead_letter_after_retry :
    ∃ (m₀ : Message) (es : Exchanges Rat) (waiting ready dead : Message) (first : Instant),
      Journey m₀ es [.waiting waiting, .ready ready, .givenUp dead] (.givenUp dead) ∧
      es.newIds = ["a"] ∧
      Kept m₀ ∅ "a" first es [.waiting waiting, .ready ready, .givenUp dead] := by
  let topics : Topics := ⟨"ready", "waiting", "dead"⟩
  let c : Worker.Config := ⟨topics, "workers", .zero, .skip, .zero, Policy.noRetry⟩
  let m₀ : Message := ⟨"t", Payload.toWire ∅, ∅⟩
  have failed : (HandlerEnd.failed ["busy"]).error? = some "busy" := rfl
  let due : Instant := ⟨1, 0, by decide, by decide, by decide⟩
  have hdue : dueAfter .epoch (.ofSeconds 1) = some due := rfl
  -- the first worker grants a retry
  let d₁ : Delivery := ⟨⟨"ready", 0, "0"⟩, m₀, 1⟩
  let t₁ := failedTrail threeRuns d₁ "a" "busy" .epoch
  let waiting := retryCopy m₀ (t₁.record .retried .epoch) (.ofSeconds 1) due
  let es₁ : Exchanges Rat := [⟨.count .processed, ()⟩, ⟨.now, .epoch⟩, ⟨.policy, threeRuns⟩,
    ⟨.newId, "a"⟩, ⟨.now, .epoch⟩, ⟨.handles "t", true⟩, ⟨.now, .epoch⟩,
    ⟨.handle (contextOf threeRuns .never d₁ "a") ∅, .failed ["busy"]⟩, ⟨.now, .epoch⟩,
    ⟨.remember d₁.position.render t₁, ()⟩, ⟨.now, .epoch⟩,
    ⟨.remember d₁.position.render (t₁.record .retried .epoch), ()⟩,
    ⟨.publish "waiting" waiting, .ok ()⟩, ⟨.ack d₁, .ok ()⟩, ⟨.forget d₁.position.render, ()⟩,
    ⟨.count .retried, ()⟩]
  have given : (identify m₀ : Program Rat String).Ends [⟨.newId, "a"⟩] "a" := .ask _ _ (.done _)
  have retried : (handleFailure c.topics threeRuns id d₁ t₁).Ends (es₁.drop 10) (.ok .retried) :=
    handleFailure_retried rfl (threeRuns_backoff id) hdue
  have attempted : Move (.ready m₀) es₁ (.waiting waiting) :=
    .attempted (process_failed given rfl failed retried : (process c id .never d₁).Ends es₁ _)
      (.retried (List.mem_of_getElem? (i := 12) rfl))
  -- the promoter holds the copy until it is due
  let ready := promotedCopy waiting due
  let d₂ : Delivery := ⟨⟨"waiting", 0, "0"⟩, waiting, 1⟩
  have promoted : Move (.waiting waiting) ([] : Exchanges Rat) (.ready ready) :=
    .promoted (promoteDue_push ⟨topics, "promoters", .zero⟩ due d₂) ⟨[_], [], rfl⟩
  -- the second worker grants none
  let p : Policy Rat := { threeRuns with maxRetries := 1 }
  let d₃ : Delivery := ⟨⟨"ready", 0, "1"⟩, ready, 1⟩
  let t₃ := failedTrail p d₃ "a" "busy" due
  let dead := deadLetterCopy d₃ (t₃.record .deadLettered due) due
  let es₃ : Exchanges Rat := [⟨.count .processed, ()⟩, ⟨.now, due⟩, ⟨.policy, p⟩,
    ⟨.now, due⟩, ⟨.handles "t", true⟩, ⟨.now, due⟩,
    ⟨.handle (contextOf p .never d₃ "a") ∅, .failed ["busy"]⟩, ⟨.now, due⟩,
    ⟨.remember d₃.position.render t₃, ()⟩, ⟨.now, due⟩,
    ⟨.remember d₃.position.render (t₃.record .deadLettered due), ()⟩,
    ⟨.publish "dead" dead, .ok ()⟩, ⟨.ack d₃, .ok ()⟩, ⟨.forget d₃.position.render, ()⟩,
    ⟨.count .deadLettered, ()⟩]
  have hid : d₃.message.header? Header.correlationId = some "a" := by
    have trail := failedTrail_trailOf threeRuns d₁ "a" "busy" .epoch
    rw [header?_promotedCopy (by decide)]
    exact (retryCopy_spec (trail.record .retried .epoch) rfl).correlationId
  have again : p.retries t₃.failures.toNat (t₃.lastError.getD "") = false := by
    have hfailures : t₃.failures.toNat = 1 := by
      have hprior : (priorFailures p d₃.message).toNat < 1 := priorFailures_lt p d₃.message
      rw [(failedTrail_trailOf p d₃ "a" "busy" due).failures]
      omega
    rw [hfailures]
    rfl
  have givenUp : (handleFailure c.topics p id d₃ t₃).Ends (es₃.drop 9) (.ok .deadLettered) :=
    handleFailure_givenUp due again
  have hread : Payload.ofWire d₃.message.payload = .ok ∅ := rfl
  have run₃ : (process c id .never d₃).Ends es₃ (.ok .deadLettered) :=
    (process_failed (identify_named hid) hread failed givenUp :)
  have last : Move (.ready ready) es₃ (.givenUp dead) :=
    .attempted run₃ (.deadLettered (List.mem_of_getElem? (i := 11) rfl))
  have journey : Journey m₀ (es₁ ++ [] ++ es₃) [.waiting waiting, .ready ready, .givenUp dead]
      (.givenUp dead) := ((Journey.start.move attempted).move promoted).move last
  have years (t : Instant) (ht : ⟨.now, t⟩ ∈ es₁ ++ [] ++ es₃) : 0 ≤ t.year ∧ t.year ≤ 9999 := by
    have ht : t = .epoch ∨ t = due := by
      simp [es₁, es₃] at ht
      exact ht
    rcases ht with rfl | rfl <;> decide
  rcases identity_kept journey rfl rfl years with ⟨hes, -⟩ | ⟨id, first, hkept⟩
  · cases hes
  · obtain rfl : id = "a" := by
      rcases hkept.identified with ⟨hid, -⟩ | ⟨-, hid⟩
      · cases hid
      · cases hid
        rfl
    exact ⟨m₀, _, waiting, ready, dead, first, journey, rfl, hkept⟩

end TaskQueue.Lineage
