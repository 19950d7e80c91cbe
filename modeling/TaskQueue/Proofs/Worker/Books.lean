import Mathlib.Data.List.Basic
import TaskQueue.Proofs.Worker.Process

/-!
# What processing a delivery leaves behind

Publishing and settling may fail at any time. Whatever is answered to a worker, an acknowledgement
comes after what entitles to it, the trail of the delivery is not kept, and the counters tell how
the delivery was resolved. A delivery that breaks the worker down is left as it is; all others are
`Returned` with an outcome or a failure of the transport.

Results:

* `route_books`, `deadLetter_books`, `scheduleRetry_books`, `handleFailure_books`, `runTask_books`,
  `resolve_books`: the parts of processing, one by one;
* `process_books`: **what one delivery leaves behind**;
* `Calls.balance`: **the counters add up** over any number of deliveries;
* `books_of_calls`: both of these.
-/

namespace TaskQueue.Dict

variable {κ α : Type} [Ord κ] [Std.TransOrd κ] [Std.LawfulEqOrd κ] [DecidableEq κ]

theorem erase_insert_self (s : Dict κ α) (k : κ) (v : α) : (s.insert k v).erase k = s.erase k := by
  refine ext_get? fun k' => ?_
  rw [get?_erase, get?_erase, get?_insert]
  split
  · rfl
  · rfl

end TaskQueue.Dict

namespace TaskQueue.Engine

variable {ν : Type}

/-- The trails that are kept after an exchange. -/
def Exchange.keep (trails : Dict String Trail) : Exchange (Answer ν) → Dict String Trail
  | ⟨.remember position t, _⟩ => trails.insert position t
  | ⟨.forget position, _⟩ => trails.erase position
  | _ => trails

/-- The counters after an exchange. -/
def Exchange.raise (cs : Worker.Counters) : Exchange (Answer ν) → Worker.Counters
  | ⟨.count c, _⟩ => cs.raise c
  | _ => cs

/-- The exchange acknowledges a delivery. -/
def Exchange.isAck : Exchange (Answer ν) → Bool
  | ⟨.ack _, _⟩ => true
  | _ => false

namespace Exchanges

/-- The trails that are kept after exchanges. -/
def trails (es : Exchanges ν) (s : Dict String Trail) : Dict String Trail :=
  es.foldl Exchange.keep s

/-- The counters after exchanges. -/
def counters (es : Exchanges ν) (cs : Worker.Counters) : Worker.Counters :=
  es.foldl Exchange.raise cs

variable {e : Exchange (Answer ν)} {es es' : Exchanges ν}

@[simp] theorem trails_cons (s : Dict String Trail) :
    trails (e :: es) s = trails es (e.keep s) := rfl

@[simp] theorem trails_append (s : Dict String Trail) :
    trails (es ++ es') s = trails es' (trails es s) := List.foldl_append

@[simp] theorem counters_cons (cs : Worker.Counters) :
    counters (e :: es) cs = counters es (e.raise cs) := rfl

@[simp] theorem counters_append (cs : Worker.Counters) :
    counters (es ++ es') cs = counters es' (counters es cs) := List.foldl_append

end Exchanges

end TaskQueue.Engine

namespace TaskQueue.Worker

open Time Engine Retry Script

variable {ν : Type} {c : Config} {d : Delivery} {e : Exchange (Answer ν)} {es es' : Exchanges ν}
  {r : Resolution} {t : Trail}

/-! ## What entitles to an acknowledgement -/

/-- A copy of a message, as a retry or as a dead letter, for the topic where it belongs. -/
inductive IsCopy (c : Config) (d : Delivery) : String → Message → Prop where
  | retry (t : Trail) (backoff : Span) (due : Instant) :
      IsCopy c d c.topics.delayed (retryCopy d.message t backoff due)
  | deadLetter (t : Trail) (now : Instant) :
      IsCopy c d c.topics.deadLetter (deadLetterCopy d t now)

/-- After such an exchange the delivery may be acknowledged. -/
inductive Entitles (c : Config) (d : Delivery) : Exchange (Answer ν) → Prop where
  /-- The handler of the task has succeeded. -/
  | succeeded {x : Context} {p : Payload} (task : x.task = d.message.key)
      (read : Payload.ofWire d.message.payload = .ok p) :
      Entitles c d ⟨.handle x p, .succeeded⟩
  /-- The task has no handler and is skipped. -/
  | skipped (rule : c.unknownTask = .skip) : Entitles c d ⟨.handles d.message.key, false⟩
  /-- Its copy was published. -/
  | routed {topic : String} {m : Message} (h : IsCopy c d topic m) :
      Entitles c d ⟨.publish topic m, .ok ()⟩

/-- **Only the delivery is acknowledged, and only after what entitles to it.** -/
def AckedFor (c : Config) (d : Delivery) (es : Exchanges ν) : Prop :=
  ∀ es₁ es₂ d' x, es = es₁ ++ ⟨.ack d', x⟩ :: es₂ → d' = d ∧ ∃ e ∈ es₁, Entitles c d e

theorem ackedFor_of_none (h : ∀ d' x, ⟨.ack d', x⟩ ∉ es) : AckedFor c d es := by
  rintro es₁ es₂ d' x rfl
  exact absurd (List.mem_append_right _ List.mem_cons_self) (h d' x)

/-- What comes before does not take a title away. -/
theorem AckedFor.cons (h : AckedFor c d es) (he : e.isAck = false) : AckedFor c d (e :: es) := by
  intro es₁ es₂ d' x hes
  rcases List.cons_eq_append_iff.mp hes with ⟨-, hack⟩ | ⟨es₁', rfl, hrest⟩
  · rw [← (List.cons.inj hack).1] at he
    cases he
  · obtain ⟨rfl, e', he', hent⟩ := h es₁' es₂ d' x hrest
    exact ⟨rfl, e', .tail _ he', hent⟩

/-- Once entitled, a worker may acknowledge the delivery. -/
theorem Entitles.ackedFor (h : Entitles c d e) (hes : ∀ d' x, ⟨.ack d', x⟩ ∈ es → d' = d) :
    AckedFor c d (e :: es) := by
  intro es₁ es₂ d' x heq
  rcases List.cons_eq_append_iff.mp heq with ⟨-, hack⟩ | ⟨es₁', rfl, hrest⟩
  · obtain rfl := (List.cons.inj hack).1
    cases h
  · refine ⟨hes d' x ?_, e, List.mem_cons_self, h⟩
    rw [hrest]
    exact List.mem_append_right _ List.mem_cons_self

theorem AckedFor.append_left (h : AckedFor c d es') (hn : ∀ d' x, ⟨.ack d', x⟩ ∉ es) :
    AckedFor c d (es ++ es') := by
  induction es with
  | nil => exact h
  | cons e es ih =>
    refine (ih fun d' x hmem => hn d' x (.tail _ hmem)).cons ?_
    obtain ⟨r, x⟩ := e
    cases r with
    | ack d' => exact absurd List.mem_cons_self (hn d' x)
    | _ => rfl

/-! ## The parts of processing -/

/-- The worker has not broken down. -/
def Returned : Resolution → Prop
  | .ok _ => True
  | .error (.transport _) => True
  | .error _ => False

/-- The counters after a delivery was resolved: only an outcome is counted. -/
def Resolution.raise (cs : Counters) : Resolution → Counters
  | .ok o => cs.raise o.counter
  | .error _ => cs

/-- What resolving leaves behind: the trail of the delivery is dropped, or none was kept. -/
structure Books (c : Config) (d : Delivery) (es : Exchanges ν) (r : Resolution) : Prop where
  acked : AckedFor c d es
  trails : (∀ s, es.trails s = s.erase d.position.render) ∨ ∀ s, es.trails s = s
  counters : ∀ cs, es.counters cs = r.raise cs

/-- As `Books`, when a trail has been kept. -/
structure Cleared (c : Config) (d : Delivery) (es : Exchanges ν) (r : Resolution) : Prop where
  acked : AckedFor c d es
  trails : ∀ s, es.trails s = s.erase d.position.render
  counters : ∀ cs, es.counters cs = r.raise cs

theorem Cleared.books (h : Cleared c d es r) : Books c d es r :=
  ⟨h.acked, .inl h.trails, h.counters⟩

/-- Keeping a trail first makes no difference. -/
theorem Cleared.remember (h : Cleared c d es r) (t : Trail) (u : Unit) :
    Cleared c d (⟨.remember d.position.render t, u⟩ :: es) r where
  acked := h.acked.cons rfl
  trails s := by
    rw [Exchanges.trails_cons, h.trails]
    exact Dict.erase_insert_self s _ t
  counters cs := h.counters cs

/-- Looking at the clock makes no difference. -/
theorem Cleared.now (h : Cleared c d es r) (now : Instant) : Cleared c d (⟨.now, now⟩ :: es) r where
  acked := h.acked.cons rfl
  trails s := h.trails s
  counters cs := h.counters cs

theorem conclude_books {o : Outcome} {x : Except TransportError Unit}
    (h : (conclude o x).Ends es r) :
    (∀ d' y, ⟨.ack d', y⟩ ∉ es) ∧ (∀ s, es.trails s = s) ∧ ∀ cs, es.counters cs = r.raise cs := by
  unfold conclude at h
  cases x with
  | ok u =>
    simp only [request_bind, pure_eq_done, ends_ask_iff, ends_done_iff] at h
    obtain ⟨u', es', rfl, rfl, rfl⟩ := h
    exact ⟨by simp, fun _ => rfl, fun _ => rfl⟩
  | error e =>
    simp only [pure_eq_done, ends_done_iff] at h
    obtain ⟨rfl, rfl⟩ := h
    exact ⟨by simp, fun _ => rfl, fun _ => rfl⟩

/-- **A copy is published before the delivery is acknowledged**, and the trail is dropped. -/
theorem route_books {o : Outcome} {topic : String} {m : Message} (hm : IsCopy c d topic m)
    (h : (forward d topic m >>= conclude o).Ends es r) : Cleared c d es r := by
  obtain ⟨es₁, es₂, x, rfl, h₁, h₂⟩ := ends_bind_iff.mp h
  obtain ⟨hnone, htrails, hcounters⟩ := conclude_books h₂
  unfold forward at h₁
  simp only [request_bind, ends_ask_iff] at h₁
  obtain ⟨y, es₃, rfl, h₁⟩ := h₁
  cases y with
  | error e =>
    simp only [pure_eq_done, done_bind, ends_ask_iff, ends_done_iff] at h₁
    obtain ⟨u, es₄, rfl, rfl, rfl⟩ := h₁
    refine ⟨ackedFor_of_none (by simpa using hnone), fun s => htrails _, fun cs => hcounters cs⟩
  | ok u =>
    simp only [pure_eq_done, ends_ask_iff, ends_done_iff] at h₁
    obtain ⟨y, es₄, rfl, u', es₅, rfl, rfl, rfl⟩ := h₁
    refine ⟨(Entitles.routed hm).ackedFor fun d' z hz => ?_, fun s => htrails _,
      fun cs => hcounters cs⟩
    have hz : d' = d ∧ z = x := by simpa [hnone] using hz
    exact hz.1

theorem deadLetter_books (h : (deadLetter c.topics d t).Ends es r) : Cleared c d es r := by
  unfold deadLetter at h
  simp only [request_bind, ends_ask_iff] at h
  obtain ⟨now, es₁, rfl, u, es₂, rfl, h⟩ := h
  exact ((route_books (.deadLetter _ _) h).remember _ u).now now

theorem scheduleRetry_books {backoff : Span} (hr : Returned r)
    (h : (scheduleRetry c.topics d t backoff).Ends es r) : Cleared c d es r := by
  unfold scheduleRetry at h
  simp only [request_bind, ends_ask_iff] at h
  obtain ⟨now, es₁, rfl, h⟩ := h
  cases hd : dueAfter now backoff with
  | none =>
    simp only [hd, pure_eq_done, ends_done_iff] at h
    rw [h.2] at hr
    exact hr.elim
  | some due =>
    simp only [hd, ends_ask_iff] at h
    obtain ⟨u, es₂, rfl, h⟩ := h
    exact ((route_books (.retry _ _ _) h).remember _ u).now now

/-- A message whose task has no handler is acknowledged only when it is to be skipped. -/
theorem resolveUnknown_books (h : (resolveUnknown c d).Ends es r) :
    Books c d (⟨.handles d.message.key, false⟩ :: es) r := by
  unfold resolveUnknown at h
  cases hu : c.unknownTask with
  | skip =>
    simp only [hu, request_bind, ends_ask_iff] at h
    obtain ⟨x, es₁, rfl, h⟩ := h
    obtain ⟨hnone, htrails, hcounters⟩ := conclude_books h
    refine ⟨(Entitles.skipped hu).ackedFor fun d' y hy => ?_, .inr htrails, hcounters⟩
    rcases List.mem_cons.mp hy with heq | hy
    · cases heq
      rfl
    · exact absurd hy (hnone d' y)
  | requeue =>
    simp only [hu, request_bind, ends_ask_iff] at h
    obtain ⟨u, es₁, rfl, x, es₂, rfl, h⟩ := h
    obtain ⟨hnone, htrails, hcounters⟩ := conclude_books h
    exact ⟨ackedFor_of_none (by simpa using hnone), .inr htrails, hcounters⟩

section

variable [Number.Arithmetic ν] {draw : Draw ν} {token : CancelToken} {p : Policy ν} {id : String}

theorem handleFailure_books (hr : Returned r)
    (h : (handleFailure c.topics p draw d t).Ends es r) : Cleared c d es r := by
  unfold handleFailure at h
  split at h
  · split at h
    · exact scheduleRetry_books hr h
    · rw [(ends_done_iff.mp h).2] at hr
      exact hr.elim
  · exact deadLetter_books h

/-- **After a success the delivery is acknowledged**, after a failure its copy is routed. -/
theorem runTask_books {payload : Payload} (hread : Payload.ofWire d.message.payload = .ok payload)
    (hr : Returned r) (h : (runTask c draw token d p id t payload).Ends es r) :
    Books c d es r := by
  unfold runTask at h
  simp only [request_bind, ends_ask_iff] at h
  obtain ⟨startedAt, es₁, rfl, ending, es₂, rfl, h⟩ := h
  cases hend : ending.error? with
  | none =>
    obtain rfl := error?_eq_none_iff.mp hend
    have hent : Entitles c d
        (⟨.handle (contextOf p token d id) payload, .succeeded⟩ : Exchange (Answer ν)) :=
      .succeeded rfl hread
    simp only [HandlerEnd.error?, ends_ask_iff] at h
    obtain ⟨x, es₃, rfl, h⟩ := h
    cases x with
    | error e =>
      obtain ⟨rfl, rfl⟩ := ends_done_iff.mp h
      exact ⟨(hent.ackedFor (by simp)).cons rfl, .inr fun _ => rfl, fun _ => rfl⟩
    | ok u =>
      simp only [ends_ask_iff] at h
      obtain ⟨u', es₄, rfl, h⟩ := h
      obtain ⟨hnone, htrails, hcounters⟩ := conclude_books h
      refine ⟨(hent.ackedFor fun d' y hy => ?_).cons rfl, .inl fun s => htrails _,
        fun cs => hcounters cs⟩
      have hy : d' = d ∧ y = .ok u := by simpa [hnone] using hy
      exact hy.1
  | some error =>
    simp only [hend, ends_ask_iff] at h
    obtain ⟨failedAt, es₃, rfl, u, es₄, rfl, h⟩ := h
    have hc := ((handleFailure_books hr h).remember
      ((t.record .dispatched startedAt).recordFailure error failedAt) u).now failedAt
    exact ⟨(hc.acked.cons rfl).cons rfl, .inl fun s => hc.trails s, fun cs => hc.counters cs⟩

theorem resolve_books (hr : Returned r) (h : (resolve c draw token d p id t).Ends es r) :
    Books c d es r := by
  unfold resolve at h
  cases hread : Payload.ofWire d.message.payload with
  | error e =>
    simp only [hread, request_bind, ends_ask_iff] at h
    obtain ⟨failedAt, es₁, rfl, u, es₂, rfl, h⟩ := h
    exact (((deadLetter_books h).remember _ u).now failedAt).books
  | ok payload =>
    simp only [hread, request_bind, ends_ask_iff] at h
    obtain ⟨parsedAt, es₁, rfl, handled, es₂, rfl, h⟩ := h
    cases handled with
    | true =>
      rw [if_pos rfl] at h
      have hb := runTask_books hread hr h
      exact ⟨(hb.acked.cons rfl).cons rfl, hb.trails, hb.counters⟩
    | false =>
      rw [if_neg Bool.false_ne_true] at h
      have hb := resolveUnknown_books h
      exact ⟨hb.acked.cons rfl, hb.trails, hb.counters⟩

/-! ## One delivery -/

omit [Number.Arithmetic ν] in
/-- When a copy could not be published, nothing is acknowledged. -/
theorem Routed.unpublished {topic t : String} {m m' : Message} {x : Except TransportError Unit}
    {y : TransportError} (h : Routed d topic m es x) (hmem : ⟨.publish t m', .error y⟩ ∈ es) :
    (∀ d' z, ⟨.ack d', z⟩ ∉ es) ∧ x = .error y := by
  cases h with
  | refused e =>
    cases List.mem_singleton.mp hmem
    exact ⟨by simp, rfl⟩
  | acked => simp at hmem

/-- **A failed publish is followed by no acknowledgement**, and the call fails. -/
theorem process_unpublished {topic : String} {m : Message} {x : TransportError}
    (h : (process c draw token d).Ends es r) (hmem : ⟨.publish topic m, .error x⟩ ∈ es) :
    (∀ d' y, ⟨.ack d', y⟩ ∉ es) ∧ r = .error (.transport x) := by
  obtain ⟨p, id, receivedAt, -, -, -, hp⟩ := process_ends h
  have hmem' : ⟨.publish topic m, .error x⟩ ∈ es.transport := List.mem_filter.mpr ⟨hmem, rfl⟩
  have routed {t : String} {m : Message} {o : Outcome} {y : Except TransportError Unit}
      (hr : Routed d t m es.transport y) :
      (∀ d' z, ⟨.ack d', z⟩ ∉ es) ∧ settled o y = .error (.transport x) := by
    obtain ⟨hnone, rfl⟩ := hr.unpublished hmem'
    exact ⟨fun d' z hz => hnone d' z (List.mem_filter.mpr ⟨hz, rfl⟩), rfl⟩
  cases hp with
  | malformed _ _ _ _ _ hr => exact routed hr
  | skipped _ _ _ _ ht => rw [ht] at hmem'; simp at hmem'
  | requeued _ _ _ _ ht => rw [ht] at hmem'; simp at hmem'
  | succeeded _ _ ht => rw [ht] at hmem'; simp at hmem'
  | retried _ _ _ _ _ hr => exact routed hr
  | neverDue _ _ _ _ _ ht => rw [ht] at hmem'; simp at hmem'
  | noBackoff _ _ _ ht => rw [ht] at hmem'; simp at hmem'
  | givenUp _ _ _ hr => exact routed hr

omit [Number.Arithmetic ν] in
theorem identify_books {m : Message} (h : (identify m).Ends es id) :
    (∀ d' x, ⟨.ack d', x⟩ ∉ es) ∧ (∀ s, es.trails s = s) ∧ ∀ cs, es.counters cs = cs := by
  rcases identify_ends_iff.mp h with ⟨-, rfl⟩ | ⟨-, rfl⟩ <;>
    exact ⟨by simp, fun _ => rfl, fun _ => rfl⟩

/-- The counters after a call. -/
def countersAfter (cs : Counters) : Resolution → Counters
  | .ok o => (cs.raise .processed).raise o.counter
  | .error _ => cs.raise .processed

/-- **What a call leaves behind.** -/
structure LeftBehind (c : Config) (d : Delivery) (es : Exchanges ν) (r : Resolution) : Prop where
  /-- Only the delivery is acknowledged, and only after what entitles to it. -/
  acked : AckedFor c d es
  /-- When a copy could not be published, nothing is acknowledged and the call fails. -/
  unpublished : ∀ topic m x, ⟨.publish topic m, .error x⟩ ∈ es →
    (∀ d' y, ⟨.ack d', y⟩ ∉ es) ∧ r = .error (.transport x)
  /-- The trails of others stay as they are. -/
  others : ∀ s k, k ≠ d.position.render → (es.trails s).get? k = s.get? k
  /-- No trail of the delivery is left if there was none. -/
  own : ∀ s, s.get? d.position.render = none → (es.trails s).get? d.position.render = none
  /-- Every call counts as processed, and an outcome counts as well. -/
  counters : ∀ cs, es.counters cs = countersAfter cs r

theorem process_books (h : (process c draw token d).Ends es r) (hr : Returned r) :
    LeftBehind c d es r := by
  have hunpublished : ∀ topic m x, ⟨.publish topic m, .error x⟩ ∈ es →
      (∀ d' y, ⟨.ack d', y⟩ ∉ es) ∧ r = .error (.transport x) :=
    fun topic m x => process_unpublished h
  obtain ⟨receivedAt, p, es₄, es₅, id, rfl, hid, h⟩ := process_ends_iff.mp h
  obtain ⟨hnone, htrails, hcounters⟩ := identify_books hid
  have hb := resolve_books hr h
  have hkept (s : Dict String Trail) : Exchanges.trails ((⟨.count .processed, ()⟩ :
      Exchange (Answer ν)) :: ⟨.now, receivedAt⟩ :: ⟨.policy, p⟩ :: (es₄ ++ es₅)) s =
      Exchanges.trails es₅ s := by
    simp only [Exchanges.trails_cons, Exchanges.trails_append, Exchange.keep, htrails]
  refine ⟨(((hb.acked.append_left hnone).cons rfl).cons rfl).cons rfl, hunpublished,
    fun s k hk => ?_, fun s hs => ?_, fun cs => ?_⟩
  · rw [hkept]
    rcases hb.trails with ht | ht
    · rw [ht, Dict.get?_erase, if_neg hk]
    · rw [ht]
  · rw [hkept]
    rcases hb.trails with ht | ht
    · rw [ht, Dict.get?_erase, if_pos rfl]
    · rw [ht, hs]
  · simp only [Exchanges.counters_cons, Exchanges.counters_append, Exchange.raise, hcounters,
      hb.counters]
    cases r with
    | ok o => rfl
    | error e => rfl

end

/-! ## Many deliveries -/

/-- Calls that return, one after the other, with the results. -/
inductive Calls [Number.Arithmetic ν] : Exchanges ν → List Resolution → Prop where
  | nil : Calls [] []
  | call {c : Config} {draw : Draw ν} {token : CancelToken} {d : Delivery} {es es' : Exchanges ν}
      {r : Resolution} {rs : List Resolution} (h : (process c draw token d).Ends es r)
      (returned : Returned r) (hs : Calls es' rs) : Calls (es ++ es') (r :: rs)

/-- The call has failed. -/
def failed : Resolution → Bool
  | .ok _ => false
  | .error _ => true

/-- All that was processed was resolved in one way or another, but for so many failed calls. -/
def Balanced (cs : Counters) (failures : Nat) : Prop :=
  cs.processed = cs.succeeded + cs.retried + cs.deadLettered + cs.skipped + failures

theorem Balanced.after {cs : Counters} {n : Nat} (h : Balanced cs n) (r : Resolution) :
    Balanced (countersAfter cs r) (n + [r].countP failed) := by
  unfold Balanced at *
  cases r with
  | ok o =>
    cases o <;> simp only [countersAfter, Outcome.counter, Counters.raise, failed,
      List.countP_singleton, Bool.false_eq_true, if_false] <;> omega
  | error e =>
    simp only [countersAfter, Counters.raise, failed, List.countP_singleton, if_true]
    omega

/-- **The counters add up.** -/
theorem Calls.balance [Number.Arithmetic ν] {rs : List Resolution} (h : Calls es rs)
    {cs : Counters} {n : Nat} (hcs : Balanced cs n) :
    Balanced (es.counters cs) (n + rs.countP failed) := by
  induction h generalizing cs n with
  | nil => exact hcs
  | @call c draw token d es es' r rs h returned _ ih =>
    rw [Exchanges.counters_append, (process_books h returned).counters cs]
    have := ih (hcs.after r)
    rwa [Nat.add_assoc, ← List.countP_append] at this

/-! ## The result -/

/-- **What deliveries leave behind.** A call that returns acknowledges only its delivery, after the
handler has succeeded, the task was skipped as unknown, or a copy was published; a copy that could
not be published ends it. No trail of the delivery is left, and those of others are as they were.
Every call counts as processed and every outcome counts once, so that over all calls the counters
add up with those that have failed. -/
theorem books_of_calls {ν : Type} [Number.Arithmetic ν] :
    (∀ (c : Config) (draw : Draw ν) token d es r, (process c draw token d).Ends es r →
      Returned r → LeftBehind c d es r) ∧
    ∀ (es : Exchanges ν) rs, Calls es rs →
      Balanced (es.counters .zero) (rs.countP failed) := by
  refine ⟨fun c draw token d es r h hr => process_books h hr, fun es rs h => ?_⟩
  have hzero : Balanced .zero 0 := rfl
  have := h.balance hzero
  rwa [Nat.zero_add] at this

/-- A dead letter that cannot be published leaves a call that was counted, and nothing else. -/
theorem unpublished_leaves_nothing :
    ∃ (c : Config) (d : Delivery) (es : Exchanges Number.Double) (r : Resolution),
      (process c id .never d).Ends es r ∧ Returned r ∧ (∀ d' x, ⟨.ack d', x⟩ ∉ es) ∧
      (es.trails ∅).get? d.position.render = none ∧ es.counters .zero = ⟨1, 0, 0, 0, 0⟩ := by
  let c : Config := ⟨⟨"ready", "waiting", "dead"⟩, "workers", .zero, .skip, .zero, Policy.noRetry⟩
  let m : Message := (⟨"t", [], ∅⟩ : Message).setHeader Header.correlationId "a"
  let d : Delivery := ⟨⟨"ready", 0, "0"⟩, m, 1⟩
  obtain ⟨e, hread⟩ : ∃ e, Payload.ofWire d.message.payload = .error e := ⟨_, rfl⟩
  let t := (firstTrail Policy.noRetry d "a" .epoch).recordFailure
    ("malformed payload: " ++ e.message) .epoch
  let t' := t.record .deadLettered .epoch
  let es : Exchanges Number.Double := [⟨.count .processed, ()⟩, ⟨.now, .epoch⟩,
    ⟨.policy, Policy.noRetry⟩, ⟨.now, .epoch⟩, ⟨.remember d.position.render t, ()⟩,
    ⟨.now, .epoch⟩, ⟨.remember d.position.render t', ()⟩,
    ⟨.publish "dead" (deadLetterCopy d t' .epoch), .error .poisoned⟩,
    ⟨.forget d.position.render, ()⟩]
  have run : (process c id .never d).Ends es (.error (.transport .poisoned)) := by
    refine process_ends_iff.mpr ⟨_, _, [], _, "a", rfl, .done _, ?_⟩
    unfold resolve
    simp only [hread]
    refine .ask _ _ (.ask _ _ (.ask _ _ (.ask _ _ ?_)))
    refine ends_bind_iff.mpr ⟨[], _, (), rfl, .done _, ?_⟩
    refine ends_bind_iff.mpr ⟨_, [], .error .poisoned, (List.append_nil _).symm, ?_, .done _⟩
    exact .ask _ _ (.ask _ _ (.done _))
  have hb := books_of_calls.1 c id .never d es _ run trivial
  exact ⟨c, d, es, _, run, trivial,
    (hb.unpublished "dead" (deadLetterCopy d t' .epoch) .poisoned (by simp [es])).1,
    hb.own ∅ rfl, hb.counters .zero⟩

end TaskQueue.Worker
