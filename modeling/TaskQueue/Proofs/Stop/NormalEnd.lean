import TaskQueue.Proofs.Promotion.Promote
import TaskQueue.Proofs.Stop.Attended
import TaskQueue.Proofs.Worker.Process
import TaskQueue.Worker.Loop

/-!
# How workers and promoters end when they are stopped

A stop tells a component to end and closes its handle. A worker or promoter that is waiting for a
delivery then ends as it should. One that is about to join its group or to publish a copy is refused
by the closed handle, and ends with that failure.

Results:

* `Worker.process_concludes`, `Promotion.promoteAndGoOn_concludes`: a delivery or a batch is
  resolved unless the closed handle refuses a copy;
* `Worker.stops`, `Promotion.stops`, `closed_iff_refused`: **a run ends by the closed handle exactly
  when the handle has refused something**; any other run, and any turn that begins after the
  component was told to end, ends normally;
* `worker_refused_while_stopped`, `promoter_refused_while_stopped`: a worker and a promoter that are
  refused a copy.
-/

namespace TaskQueue.Engine

variable {ν σ ε : Type}

/-- Copies were to be published: the closed handle has refused one, or all went well. -/
def SentBy (es : Exchanges ν) (x : Except TransportError Unit) : Prop :=
  (es.Refused ∧ x = .error .closed) ∨ (¬ es.Refused ∧ x = .ok ())

/-- **How an engine takes a stop.** `fail` makes a failure of the transport one of the engine, and
`broken` are its failures that have nothing to do with the transport. -/
structure Stops (topic group : String) (fail : TransportError → ε) (broken : ε → Prop)
    (opening : Program ν (Turn σ ε)) (turn : σ → Program ν (Turn σ ε)) : Prop where
  /-- A run ends by the closed handle exactly when it was refused. -/
  closed_iff : ∀ (es : Exchanges ν) r s s', Runs turn opening es r →
    Attended topic group s es s' → s.Proper → es.OnlyClosed →
    (r = .error (fail .closed) ↔ es.Refused)
  /-- Otherwise it ends normally, or the engine breaks down. -/
  normal : ∀ (es : Exchanges ν) r s s', Runs turn opening es r →
    Attended topic group s es s' → s.Proper → es.OnlyClosed → ¬ es.Refused →
    r = .ok () ∨ ∃ e, broken e ∧ r = .error e
  /-- A handle that is still open has refused nothing. -/
  still_open : ∀ (es : Exchanges ν) r s s', Runs turn opening es r →
    Attended topic group s es s' → s'.port.closed = false → ¬ es.Refused
  /-- Who was told to end is handed nothing more, and ends normally. -/
  told : ∀ (es : Exchanges ν) t state s s', (turn state).Ends es t →
    Attended topic group s es s' → s.Proper → es.OnlyClosed → s.told = true →
    t = .ended (.ok ()) ∧ ∀ wait d, ⟨.receive wait, .delivery d⟩ ∉ es

theorem stops_of_concludes {topic group : String} {fail : TransportError → ε} {broken : ε → Prop}
    {opening : Program ν (Turn σ ε)} {turn : σ → Program ν (Turn σ ε)}
    (hb : ¬ broken (fail .closed)) (hopening : Concludes topic group fail broken opening)
    (hturn : ∀ state, Concludes topic group fail broken (turn state))
    (told : ∀ (es : Exchanges ν) t state s s', (turn state).Ends es t →
      Attended topic group s es s' → s.Proper → es.OnlyClosed → s.told = true →
      t = .ended (.ok ()) ∧ ∀ wait d, ⟨.receive wait, .delivery d⟩ ∉ es) :
    Stops topic group fail broken opening turn where
  closed_iff es r s s' h attended hs hc := (h.endsBy hopening hturn attended hs hc).closed_iff hb
  normal es r s s' h attended hs hc hn := by
    cases h.endsBy hopening hturn attended hs hc with
    | refused hr => exact absurd hr hn
    | normal => exact .inl rfl
    | broken _ he => exact .inr ⟨_, he, rfl⟩
  still_open es r s s' _ attended hopen hr := by
    rw [attended.closed_of_refused hr] at hopen
    cases hopen
  told := told

/-- Joins a group and goes on from a state. -/
def joinThen (fail : TransportError → ε) (state : σ) (t g : String) : Program ν (Turn σ ε) := do
  match ← ask (.subscribe t g) with
  | .ok () => return .goOn state
  | .error e => return .ended (.error (fail e))

/-- Joining a group is refused by the closed handle, or the run goes on. -/
theorem joinThen_concludes {topic group t g : String} {fail : TransportError → ε}
    {broken : ε → Prop} {state : σ} :
    Concludes topic group fail broken (joinThen fail state t g : Program ν (Turn σ ε)) := by
  intro es turn s s' h _ _ hc
  unfold joinThen at h
  simp only [Script.request_bind, Script.ends_ask_iff] at h
  obtain ⟨x, es₁, rfl, h⟩ := h
  cases x with
  | ok u =>
    obtain ⟨rfl, rfl⟩ := Script.ends_done_iff.mp h
    exact fun hr => by simp [Exchange.Refused] at hr
  | error e =>
    obtain ⟨rfl, rfl⟩ := Script.ends_done_iff.mp h
    obtain rfl : e = .closed := hc.cons.1 e rfl
    exact .refused ⟨_, List.mem_cons_self, trivial⟩

end TaskQueue.Engine

/-! ## Workers -/

namespace TaskQueue.Worker

open Engine Script Retry

variable {ν : Type} {es : Exchanges ν} {d : Delivery} {topic group : String} {m : Message}
  {x : Except TransportError Unit}

/-- A copy is refused by the closed handle, or all goes well. -/
theorem Routed.sentBy (h : Routed d topic m es x) (hs : ∀ e ∈ es, e.Settles)
    (hc : es.OnlyClosed) : SentBy es x := by
  cases h with
  | refused e =>
    obtain rfl : e = .closed := hc _ List.mem_cons_self e rfl
    exact .inl ⟨⟨_, List.mem_cons_self, trivial⟩, rfl⟩
  | acked r =>
    refine .inr ⟨?_, hs _ (.tail _ List.mem_cons_self)⟩
    simp [Exchange.Refused]

/-- A worker that cannot say when a retry is due breaks down. -/
def BrokenDown : Failure → Prop
  | .overflow _ => True
  | .backoff _ => True
  | _ => False

/-- What a worker makes of a delivery when all that fails is a closed handle. -/
inductive ResolvedBy (es : Exchanges ν) : Resolution → Prop where
  | refused (h : es.Refused) : ResolvedBy es (.error (.transport .closed))
  | resolved (h : ¬ es.Refused) (o : Outcome) : ResolvedBy es (.ok o)
  | broken (h : ¬ es.Refused) {e : Failure} (he : BrokenDown e) : ResolvedBy es (.error e)

section

variable [Number.Arithmetic ν] {c : Config} {draw : Draw ν} {token : CancelToken} {r : Resolution}

/-- **A delivery is resolved unless the closed handle refuses its copy.** -/
theorem process_concludes (h : (process c draw token d).Ends es r) (hs : ∀ e ∈ es, e.Settles)
    (hc : es.OnlyClosed) : ResolvedBy es r := by
  obtain ⟨p, id, receivedAt, -, -, -, hp⟩ := process_ends h
  have routed {t : String} {m : Message} {o : Outcome} {x : Except TransportError Unit}
      (hr : Routed d t m es.transport x) : ResolvedBy es (settled o x) := by
    rcases hr.sentBy (fun e he => hs e (List.mem_filter.mp he).1)
      (fun e he => hc e (List.mem_filter.mp he).1) with ⟨href, rfl⟩ | ⟨hn, rfl⟩
    · exact .refused (Exchanges.refused_transport.mp href)
    · exact .resolved (fun h => hn (Exchanges.refused_transport.mpr h)) o
  have settles {o : Outcome} {e : Exchange (Answer ν)} {x : Except TransportError Unit}
      (ht : es.transport = [e]) (he : e.Settles → x = .ok ()) (hn : ¬ e.Refused) :
      ResolvedBy es (settled o x) := by
    have hmem : e ∈ es.transport := by
      rw [ht]
      exact List.mem_cons_self
    obtain rfl := he (hs e (List.mem_filter.mp hmem).1)
    refine .resolved (fun h => ?_) o
    rw [← Exchanges.refused_transport, ht] at h
    simp [hn] at h
  cases hp with
  | malformed _ _ _ _ _ hr => exact routed hr
  | skipped _ _ _ _ ht => exact settles ht (fun h => h) (fun h => h)
  | requeued _ _ _ _ ht => exact settles ht (fun h => h) (fun h => h)
  | succeeded _ _ ht => exact settles ht (fun h => h) (fun h => h)
  | retried _ _ _ _ _ hr => exact routed hr
  | neverDue _ _ _ _ _ ht => exact .broken (Exchanges.not_refused_of_transport ht) trivial
  | noBackoff _ _ _ ht => exact .broken (Exchanges.not_refused_of_transport ht) trivial
  | givenUp _ _ _ hr => exact routed hr

omit [Number.Arithmetic ν] in
theorem opening_eq : (opening c : Program ν (Turn Unit Failure)) =
    joinThen .transport () c.topics.active c.group := by
  unfold opening joinThen
  congr 1
  funext x
  cases x <;> rfl

/-- What a worker does with a delivery. -/
def onward (c : Config) (draw : Draw ν) (token : CancelToken) :
    Option Delivery → Program ν (Turn Unit Failure)
  | none => return .goOn ()
  | some d => do
    match ← process c draw token d with
    | .ok _ => return .goOn ()
    | .error e => return .ended (.error e)

/-- A turn of a worker is a wait for a delivery. -/
theorem turn_eq :
    turn c draw token = awaitThen .transport (onward c draw token) c.pollTimeout := by
  unfold turn awaitThen
  congr 1
  funext x
  cases x <;> rfl

theorem onward_concludes (d? : Option Delivery) :
    Concludes topic group Failure.transport BrokenDown (onward c draw token d?) := by
  intro es t s s' h attended _ hc
  cases d? with
  | none =>
    obtain ⟨rfl, rfl⟩ := ends_done_iff.mp h
    exact Exchanges.refused_nil
  | some d =>
    obtain ⟨es₁, es₂, r, rfl, h₁, h₂⟩ := ends_bind_iff.mp h
    have hsettles : ∀ e ∈ es₁, e.Settles := fun e he =>
      attended.settles hc e (List.mem_append_left _ he)
    cases process_concludes h₁ hsettles hc.append.1 with
    | refused hr =>
      obtain ⟨rfl, rfl⟩ := ends_done_iff.mp h₂
      exact .refused (Exchanges.refused_append.mpr (.inl hr))
    | resolved hr o =>
      obtain ⟨rfl, rfl⟩ := ends_done_iff.mp h₂
      rw [List.append_nil]
      exact hr
    | broken hr he =>
      obtain ⟨rfl, rfl⟩ := ends_done_iff.mp h₂
      rw [List.append_nil]
      exact .broken hr he

/-- **How a worker takes a stop.** -/
theorem stops (topic group : String) (c : Config) (draw : Draw ν) (token : CancelToken) :
    Stops topic group Failure.transport BrokenDown (opening c : Program ν (Turn Unit Failure))
      fun _ => turn c draw token := by
  rw [opening_eq, turn_eq]
  exact stops_of_concludes id joinThen_concludes (fun _ => awaitThen_concludes onward_concludes)
    fun _ _ _ _ _ h attended hs hc ht => awaitThen_told h attended hs hc ht

end

end TaskQueue.Worker

/-! ## Promoters -/

namespace TaskQueue.Promotion

open Engine Script

variable {ν : Type} {es : Exchanges ν} {topic group active : String} {c : Config} {q : Held}

/-- A batch is promoted unless the closed handle refuses a copy. -/
theorem Promoted.sentBy {now : Time.Instant} {ds : List Delivery}
    {x : Except TransportError Unit} (h : Promoted active now ds es x)
    (hs : ∀ e ∈ es, e.Settles) (hc : es.OnlyClosed) : SentBy es x := by
  induction h with
  | nil => exact .inr ⟨Exchanges.refused_nil, rfl⟩
  | refused d ds e =>
    obtain rfl : e = .closed := hc.cons.1 e rfl
    exact .inl ⟨⟨_, List.mem_cons_self, trivial⟩, rfl⟩
  | stuck d ds e => exact nomatch hs _ (.tail _ List.mem_cons_self)
  | cons d _ ih =>
    have hrefused {es : Exchanges ν} : Exchanges.Refused
        (⟨.publish active (promotedCopy d.message now), .ok ()⟩ :: ⟨.ack d, .ok ()⟩ :: es) ↔
        es.Refused := by simp [Exchange.Refused]
    rcases ih (fun e he => hs e (.tail _ (.tail _ he))) hc.cons.2.cons.2 with
      ⟨hr, hx⟩ | ⟨hr, hx⟩
    · exact .inl ⟨hrefused.mpr hr, hx⟩
    · exact .inr ⟨fun h => hr (hrefused.mp h), hx⟩

/-- **What is due is promoted unless the closed handle refuses a copy.** -/
theorem promoteAndGoOn_concludes (q : Held) : Concludes topic group Failure.transport
    (fun _ => False) (promoteAndGoOn c q : Program ν (Turn Held Failure)) := by
  intro es t s s' h attended _ hc
  unfold promoteAndGoOn at h
  obtain ⟨es₁, es₂, ⟨x, q'⟩, rfl, h₁, h₂⟩ := ends_bind_iff.mp h
  have hsettles := attended.settles hc
  obtain ⟨now, es₃, rfl, -, hp⟩ := promoteDue_ends h₁
  have hrefused : Exchanges.Refused ((⟨.now, now⟩ :: es₃) ++ []) ↔ Exchanges.Refused es₃ := by
    simp [Exchange.Refused]
  rcases hp.sentBy (fun e he => hsettles e (List.mem_append_left _ (.tail _ he)))
    hc.append.1.cons.2 with ⟨hr, rfl⟩ | ⟨hr, rfl⟩
  · obtain ⟨rfl, rfl⟩ := ends_done_iff.mp h₂
    exact .refused (hrefused.mpr hr)
  · obtain ⟨rfl, rfl⟩ := ends_done_iff.mp h₂
    exact fun h => hr (hrefused.mp h)

theorem opening_eq : (opening c : Program ν (Turn Held Failure)) =
    joinThen .transport ∅ c.topics.delayed c.group := by
  unfold opening joinThen
  congr 1
  funext x
  cases x <;> rfl

/-- What a promoter does with a delivery. -/
def onward (c : Config) (q : Held) : Option Delivery → Program ν (Turn Held Failure)
  | none => promoteAndGoOn c q
  | some d => do promoteAndGoOn c (← hold q d)

/-- A turn of a promoter is a wait for a delivery. -/
theorem turn_eq : (turn c q : Program ν (Turn Held Failure)) =
    nextWait c q >>= awaitThen .transport (onward c q) := by
  unfold turn awaitThen
  congr 1

/-- Reckoning how long to wait asks nothing of the broker. -/
theorem nextWait_ends {wait : Time.Span} (h : (nextWait c q).Ends es wait) :
    es.transport = [] := by
  unfold nextWait at h
  cases hq : q.nextDue? with
  | none =>
    simp only [hq, pure_eq_done, ends_done_iff] at h
    rw [h.1]
    rfl
  | some due =>
    simp only [hq, request_bind, pure_eq_done, ends_ask_iff, ends_done_iff] at h
    obtain ⟨now, es₁, rfl, rfl, -⟩ := h
    rfl

theorem onward_concludes (d? : Option Delivery) : Concludes topic group Failure.transport
    (fun _ => False) (onward c q d? : Program ν (Turn Held Failure)) := by
  cases d? with
  | none => exact promoteAndGoOn_concludes q
  | some d => exact .bind (fun _ _ h => (hold_ends h).1) promoteAndGoOn_concludes

/-- **A promoter that was told to end** ends with the turn that it begins. -/
theorem turn_told {t : Turn Held Failure} {s s' : Station} (h : (turn c q).Ends es t)
    (attended : Attended topic group s es s') (hs : s.Proper) (hc : es.OnlyClosed)
    (ht : s.told = true) :
    t = .ended (.ok ()) ∧ ∀ wait d, ⟨.receive wait, .delivery d⟩ ∉ es := by
  rw [turn_eq] at h
  obtain ⟨es₁, es₂, wait, rfl, h₁, h₂⟩ := ends_bind_iff.mp h
  obtain ⟨s₁, attended₁, attended₂⟩ := attended.of_append
  obtain ⟨hend, hnone⟩ := awaitThen_told h₂ attended₂ (attended₁.proper hs) hc.append.2
    (attended₁.told_of_told ht)
  refine ⟨hend, fun w d hmem => ?_⟩
  rcases List.mem_append.mp hmem with hmem | hmem
  · have : (⟨.receive w, .delivery d⟩ : Exchange (Answer ν)) ∈ Exchanges.transport es₁ :=
      List.mem_filter.mpr ⟨hmem, rfl⟩
    rw [nextWait_ends h₁] at this
    cases this
  · exact hnone w d hmem

/-- **How a promoter takes a stop.** -/
theorem stops (ν : Type) (topic group : String) (c : Config) :
    Stops topic group Failure.transport (fun _ => False)
      (opening c : Program ν (Turn Held Failure)) (turn c) := by
  rw [opening_eq]
  refine stops_of_concludes id joinThen_concludes (fun q => ?_)
    fun _ _ _ _ _ h attended hs hc ht => turn_told h attended hs hc ht
  rw [turn_eq]
  exact .bind (fun _ _ h => nextWait_ends h)
    fun _ => awaitThen_concludes onward_concludes

end TaskQueue.Promotion

/-! ## The result -/

namespace TaskQueue.Engine

open Broker Retry

/-- **A promoter that is stopped while it promotes** ends in the same way. -/
theorem promoter_refused_while_stopped :
    ∃ (c : Promotion.Config) (b : State) (es : Exchanges Number.Double) (s' : Station),
      Attended c.topics.delayed c.group ⟨⟨b, false⟩, false⟩ es s' ∧ es.OnlyClosed ∧
      Runs (Promotion.turn c) (Promotion.opening c) es (.error (.transport .closed)) := by
  let c : Promotion.Config := ⟨⟨"ready", "waiting", "dead"⟩, "promoters", .zero⟩
  let d : Delivery := ⟨State.position "waiting" 0, ⟨"t", [], ∅⟩, 1⟩
  let es : Exchanges Number.Double := [⟨.subscribe "waiting" "promoters", .ok ()⟩,
    ⟨.receive .zero, .delivery d⟩, ⟨.now, .epoch⟩, ⟨.now, .epoch⟩,
    ⟨.publish "ready" (Promotion.promotedCopy d.message .epoch), .error .closed⟩]
  let b : State := (∅ : State).publish "waiting" ⟨"t", [], ∅⟩
  have hd : ((b.subscribe "waiting" "promoters").receive "waiting" "promoters").1 = some d := rfl
  obtain ⟨s', attended⟩ : ∃ s', Attended "waiting" "promoters" ⟨⟨b, false⟩, false⟩ es s' :=
    ⟨_, .cons trivial (.subscribed _ _ _) (.cons rfl (.delivered _ (Prod.ext hd rfl))
      (.cons trivial (.elsewhere _ rfl) (.cons trivial (.elsewhere _ rfl)
      (.told (.shut (.cons trivial (.publishRefused _ _ _) (.nil _)))))))⟩
  refine ⟨c, b, es, s', attended, by simp [es, Exchange.failure?], ?_⟩
  have held : (Promotion.hold ∅ d : Program Number.Double _).Ends [⟨.now, .epoch⟩]
      ((∅ : Promotion.Held).push .epoch d) := .ask _ _ (.done _)
  have promoted : (Promotion.promoteAll c .epoch [d] : Program Number.Double _).Ends
      [⟨.publish "ready" (Promotion.promotedCopy d.message .epoch), .error .closed⟩]
      (.error .closed) := .ask _ _ (.done _)
  have opened : (Promotion.opening c : Program Number.Double _).Ends
      [⟨.subscribe "waiting" "promoters", .ok ()⟩] (.goOn ∅) := .ask _ _ (.done _)
  refine .goOn opened (.last (.ask _ _ ?_))
  change (Promotion.onward c ∅ (some d)).Ends _ _
  refine Script.ends_bind_iff.mpr ⟨_, _, _, rfl, held, ?_⟩
  have due : (Promotion.promoteDue c ((∅ : Promotion.Held).push .epoch d) :
      Program Number.Double _).Ends [⟨.now, .epoch⟩,
        ⟨.publish "ready" (Promotion.promotedCopy d.message .epoch), .error .closed⟩]
      (.error .closed, ∅) := by
    unfold Promotion.promoteDue
    rw [Script.request_bind]
    exact .ask _ _ (Script.ends_bind_iff.mpr
      ⟨_, [], _, (List.append_nil _).symm, promoted, .done _⟩)
  exact Script.ends_bind_iff.mpr ⟨_, [], _, (List.append_nil _).symm, due, .done _⟩

end TaskQueue.Engine
