import TaskQueue.Proofs.Broker.Exclusive
import TaskQueue.Proofs.Lineage.Progress
import TaskQueue.Proofs.Worker.Resolution
import TaskQueue.Worker.Loop

/-!
# A message that blocks its topic

A message is unrouted when its payload can be read and its task has no handler. A worker that hands
such messages back, and is alone in its group, gets the first one again before anything new: what
was given back is handed out first. So its iterations go through the log in order up to the first
unrouted message, and from then on all of them get that message, once more each time
(`handOut`). What comes after it in the log is never handed out.

Results:

* `Progress.take`: one hand-out, and the group after it was resolved;
* `process_groupOf`: processing gives an unrouted message back and settles any other;
* `exists_iterates`: an iteration comes to its end;
* `Reached.receive`: what is handed out next;
* `Reached.iterate`, `Iterations.handed`: what one iteration gets, and what each of a run gets;
* `handed_out_up_to_unrouted`: **as many iterations as there are messages hand out all of them
  exactly when none but the last is unrouted**;
* `second_message_never_handed_out`: two iterations that both get the first of two messages.
-/

namespace TaskQueue.Broker

variable {g g' : Group} {f n i length : Nat}

namespace Group

/-- How far a group has come after `n` hand-outs, each of which was settled at once but for those of
index `f`, which were given back. -/
inductive Progress (f n : Nat) (g : Group) : Prop where
  | before (le : n ≤ f) (next : g.next = n) (redeliver : g.redeliver = [])
  /-- Index `f` was given back and is handed out next. -/
  | stuck (lt : f < n) (redeliver : g.redeliver = [f]) (count : g.handOuts f = .ofNat (n - f))

theorem Progress.exists_take (h : g.Progress f n) (hlt : min n f < length) :
    ∃ i g', g.take length = some (i, g') := by
  unfold take
  cases h with
  | before le next redeliver =>
    rw [redeliver]
    exact ⟨_, _, if_pos (by omega)⟩
  | stuck lt redeliver count =>
    rw [redeliver]
    exact ⟨_, _, rfl⟩

/-- Index `f` was handed out and is given back. -/
theorem Progress.of_requeue (hpending : g.pending.contains f = true) (redeliver : g.redeliver = [])
    (hle : f ≤ n) (count : g.handOuts f = .ofNat (n - f + 1)) :
    (g.resolve f true).Progress f (n + 1) := by
  refine .stuck (Nat.lt_succ_of_le hle) ?_ ?_
  · rw [redeliver_resolve, if_pos ⟨rfl, hpending⟩, redeliver, List.nil_append]
  · rw [handOuts_resolve, if_neg fun hn => Bool.false_ne_true hn.1.symm, count,
      Nat.sub_add_comm hle]

/-- **One hand-out**: the next index, up to `f`, and then `f` once more. -/
theorem Progress.take (h : g.Progress f n) (hw : g.Within length)
    (ht : g.take length = some (i, g')) :
    i = min n f ∧ g'.handOuts i = .ofNat (n - f + 1) ∧
      (g'.resolve i (decide (i = f))).Progress f (n + 1) := by
  have hcount := handOuts_take ht i
  have hpending := pending_take ht
  rw [if_pos rfl] at hcount
  cases h with
  | before le next redeliver =>
    rcases take_cases ht with ⟨rest, hr, -⟩ | ⟨-, rfl, -, hg'⟩
    · cases redeliver.symm.trans hr
    · -- an index that was never handed out has no hand-outs
      have hnew : g.pending.contains g.next = false :=
        Bool.eq_false_iff.mpr fun hp => Nat.lt_irrefl _ (hw.pending_lt _ hp)
      have hnext : g'.next = n + 1 := by rw [hg', next_mark, ← next]
      have hredeliver : g'.redeliver = [] := by rw [hg', redeliver_mark, ← redeliver]
      have hfirst : g'.handOuts g.next = .ofNat (n - f + 1) := by
        rw [hcount, handOuts_eq_zero hnew, Nat.sub_eq_zero_of_le le]
        rfl
      refine ⟨by omega, hfirst, ?_⟩
      by_cases hf : g.next = f
      · subst hf
        rw [decide_eq_true rfl]
        exact .of_requeue hpending hredeliver (by omega) hfirst
      · rw [decide_eq_false hf]
        refine .before (by omega) ((next_resolve _ _ _).trans hnext) ?_
        rw [redeliver_resolve, if_neg fun hn => Bool.false_ne_true hn.1, hredeliver]
  | stuck lt redeliver count =>
    rcases take_cases ht with ⟨rest, hr, hg'⟩ | ⟨hr, -⟩
    · obtain ⟨rfl, rfl⟩ := List.cons.inj (hr.symm.trans redeliver)
      have hredeliver : g'.redeliver = [] := by rw [hg', redeliver_mark]
      have hagain : g'.handOuts i = .ofNat (n - i + 1) := by
        rw [hcount, count]
        exact (UInt32.ofNat_add _ 1).symm
      rw [decide_eq_true rfl]
      exact ⟨by omega, hagain, .of_requeue hpending hredeliver (by omega) hagain⟩
    · cases redeliver.symm.trans hr

end Group

/-- Only indices of 64 bits can be read from their positions. -/
theorem State.le_of_index? {topic : String} {j : Nat} (h : index? (position topic i) = .ok j) :
    i ≤ Text.maxNat64 := by
  by_contra hi
  have hnone : Text.natural? Text.maxNat64 i.repr = none := by
    rw [Text.natural?, Nat.toList_repr, Text.dropPlus_toDigits, Text.digits?_toDigits,
      Option.filter_some, if_neg (by simpa using hi)]
  simp [index?, position, hnone] at h

end TaskQueue.Broker

/-! ## Processing -/

namespace TaskQueue.Worker

open Time Engine Retry Script Broker

variable {ν : Type} {handled : String → Bool} {d : Delivery} {es : Exchanges ν} {i n : Nat}

/-- The payload can be read, and the task has no handler. -/
def unrouted (handled : String → Bool) (m : Message) : Bool :=
  (Payload.ofWire m.payload).isOk && !handled m.key

/-- Handlers are looked up in the table. -/
def Consulted (handled : String → Bool) (es : Exchanges ν) : Prop :=
  ∀ task b, ⟨.handles task, b⟩ ∈ es → b = handled task

theorem LookedUp.unrouted_iff (h : LookedUp d es) (consulted : Consulted handled es) :
    unrouted handled d.message = true ↔
      (∃ payload, Payload.ofWire d.message.payload = .ok payload) ∧ es.runs = [] := by
  have answered {b : Bool} (asked : Exchanges.lookups es = [(d.message.key, b)]) :
      b = handled d.message.key :=
    consulted _ _ (Exchanges.mem_lookups.mp (asked ▸ List.mem_cons_self))
  unfold unrouted
  cases h with
  | unread unread unasked idle => simp [unread, Except.isOk, Except.toBool]
  | unhandled read asked idle => simp [read, ← answered asked, idle, Except.isOk, Except.toBool]
  | handled read asked ran => simp [read, ← answered asked, ran, Except.isOk, Except.toBool]

/-- An exchange of a list is one exchange through the handle. -/
theorem serves_of_mem {topic group : String} {p p' : Port} {e : Exchange (Answer ν)}
    (h : Serving topic group p es p') (he : e ∈ es) : ∃ q q', Serves topic group q e q' := by
  induction h with
  | nil => cases he
  | shut _ ih => exact ih he
  | cons h _ ih =>
    rcases List.mem_cons.mp he with rfl | he
    · exact ⟨_, _, h⟩
    · exact ih he

/-- Only an index of 64 bits is settled. -/
theorem SettledOnce.index_le {topic group : String} {p p' : Port} (h : SettledOnce d es)
    (hd : d.position = State.position topic i) (hs : Serving topic group p es p') :
    i ≤ Text.maxNat64 := by
  obtain ⟨copies, last, hsent, -, -, hlast⟩ := h.transport
  have hmem : last ∈ es.transport := by simp [hsent]
  obtain ⟨q, q', serves⟩ := serves_of_mem (serving_transport hs) hmem
  have named {x : Except TransportError State} {b : State} {f : Nat → State}
      (hx : (do let i ← State.index? d.position; return f i) = x) (hb : x = .ok b) :
      i ≤ Text.maxNat64 := by
    subst hx
    rw [hd] at hb
    cases hi : State.index? (State.position topic i) with
    | ok j => exact State.le_of_index? hi
    | error e =>
      rw [hi] at hb
      cases hb
  rcases hlast with rfl | rfl
  · rcases serves_ack serves with ⟨b, hb, -⟩ | ⟨e, -, he, -⟩
    · exact named rfl hb
    · cases he
  · rcases serves_reject serves with ⟨b, hb, -⟩ | ⟨e, -, he, -⟩
    · exact named rfl hb
    · cases he

/-- What an outcome does to the group. -/
theorem Effect.groupOf {topics : Topics} {group id : String} {b b' : State} {o : Outcome}
    {tasks : List String} (h : Effect topics group d i id b (.ok o) tasks b') :
    b'.groupOf topics.active group =
      (b.groupOf topics.active group).resolve i (decide (o = .requeued)) := by
  generalize hr : (.ok o : Resolution) = r at h
  cases h with
  | failed => cases hr
  | settled done =>
    cases hr
    rw [State.groupOf_settle, if_pos ⟨rfl, rfl⟩]
    rcases done with rfl | rfl <;> rfl
  | requeued =>
    cases hr
    rw [State.groupOf_requeue, if_pos ⟨rfl, rfl⟩]
    rfl
  | forwarded route named =>
    cases hr
    rw [State.groupOf_settle, if_pos ⟨rfl, rfl⟩, State.groupOf_publish]
    rcases route with ⟨rfl, -⟩ | ⟨rfl, -⟩ <;> rfl

section

variable [Number.Arithmetic ν] {c : Config} {draw : Draw ν} {token : CancelToken} {p p' : Port}

/-- A worker that hands messages back does so with those that are unrouted. -/
theorem requeued_iff {o : Outcome} (rule : c.unknownTask = .requeue)
    (h : (process c draw token d).Ends es (.ok o)) (consulted : Consulted handled es) :
    o = .requeued ↔ unrouted handled d.message = true := by
  obtain ⟨pol, id, receivedAt, -, -, -, hp⟩ := process_ends h
  rw [(process_lookups h).unrouted_iff consulted]
  cases hp.course with
  | unreadable unread => simp [unread]
  | skipped _ _ other => exact nomatch other.symm.trans rule
  | requeued read idle => simp [read, idle]
  | succeeded _ ran => simp [ran]
  | retried _ ran => simp [ran]
  | givenUp _ ran => simp [ran]

/-- **Processing gives an unrouted message back** and settles any other. -/
theorem process_groupOf {o : Outcome} (rule : c.unknownTask = .requeue)
    (h : (process c draw token d).Ends es (.ok o)) (consulted : Consulted handled es)
    (hd : d.position = State.position c.topics.active i)
    (hs : Serving c.topics.active c.group p es p') :
    p'.broker.groupOf c.topics.active c.group =
      (p.broker.groupOf c.topics.active c.group).resolve i (unrouted handled d.message) := by
  obtain ⟨pol, id, receivedAt, -, -, -, hp⟩ := process_ends h
  have hi := hp.course.settledOnce.index_le hd hs
  have heffect := process_effect rfl hd hi hp (process_lookups h) hs
  rw [heffect.groupOf, Bool.eq_iff_iff.mpr
    ((decide_eq_true_iff).trans (requeued_iff rule h consulted))]

/-! ## Iterations -/

/-- **One iteration** of the loop: the turn of a worker that waits for a delivery, and processes it
if there is one. -/
inductive Iterates (c : Config) (draw : Draw ν) (token : CancelToken) (handled : String → Bool) :
    Port → Option Delivery → Turn Unit Failure → Port → Prop where
  | delivered {wait : Span} {d : Delivery} {es : Exchanges ν} {t : Turn Unit Failure} {p p' : Port}
      (turn : (turn c draw token).Ends (⟨.receive wait, .delivery d⟩ :: es) t)
      (consulted : Consulted handled es)
      (serving : Serving c.topics.active c.group p (⟨.receive wait, .delivery d⟩ :: es) p') :
      Iterates c draw token handled p (some d) t p'
  | idle {wait : Span} {t : Turn Unit Failure} {p p' : Port}
      (turn : (turn c draw token).Ends [⟨.receive wait, .nothing⟩] t)
      (serving : Serving c.topics.active c.group p
        ([⟨.receive wait, .nothing⟩] : Exchanges ν) p') :
      Iterates c draw token handled p none t p'

/-- The loop goes on when a delivery has come to an outcome. -/
def nextTurn : Resolution → Turn Unit Failure
  | .ok _ => .goOn ()
  | .error e => .ended (.error e)

theorem nextTurn_eq_goOn {r : Resolution} (h : nextTurn r = .goOn ()) : ∃ o, r = .ok o := by
  cases r with
  | ok o => exact ⟨o, rfl⟩
  | error e => cases h

/-- A turn that is handed a delivery processes it. -/
theorem turn_delivery_iff {wait : Span} {t : Turn Unit Failure} :
    (turn c draw token).Ends (⟨.receive wait, .delivery d⟩ :: es) t ↔
      wait = c.pollTimeout ∧ ∃ r, (process c draw token d).Ends es r ∧ t = nextTurn r := by
  constructor
  · intro h
    unfold turn at h
    simp only [request_bind, ends_ask_iff] at h
    obtain ⟨x, es', hes, h⟩ := h
    cases hes
    obtain ⟨es₁, es₂, r, rfl, hr, h⟩ := ends_bind_iff.mp h
    refine ⟨rfl, r, ?_⟩
    cases r <;>
    · obtain ⟨rfl, rfl⟩ := ends_done_iff.mp h
      exact ⟨by rwa [List.append_nil], rfl⟩
  · rintro ⟨rfl, r, hr, rfl⟩
    unfold turn
    simp only [request_bind]
    refine .ask _ _ (ends_bind_iff.mpr ⟨es, [], r, (List.append_nil _).symm, hr, ?_⟩)
    cases r <;> exact .done _

/-- Whatever is asked through an open handle has an answer, by the table of handlers. -/
theorem exists_consulted {α : Type} (topic group : String) (handled : String → Bool)
    (s : Program ν α) (b : State) : ∃ (es : Exchanges ν) (a : α) (b' : State), s.Ends es a ∧
      Serving topic group ⟨b, false⟩ es ⟨b', false⟩ ∧ Consulted handled es := by
  have nothing : Consulted handled ([] : Exchanges ν) := fun _ _ he => absurd he List.not_mem_nil
  refine Script.exists_ends (R := fun b es b' => Serving topic group ⟨b, false⟩ es ⟨b', false⟩ ∧
    Consulted handled es) (fun b => ⟨.nil _, nothing⟩) (fun b r => ?_) s b
  obtain ⟨x, b', serves, hx⟩ : ∃ x b', Serves topic group ⟨b, false⟩ ⟨r, x⟩ ⟨b', false⟩ ∧
      ∀ task y, (⟨.handles task, y⟩ : Exchange (Answer ν)) = ⟨r, x⟩ → y = handled task := by
    by_cases hr : ∃ task, r = .handles task
    · obtain ⟨task, rfl⟩ := hr
      refine ⟨handled task, b, .elsewhere _ rfl, fun task' y he => ?_⟩
      cases he
      rfl
    · let zero : ν := Number.Arithmetic.ofNat 0
      obtain ⟨x, b', serves, -⟩ := Lineage.exists_serves topic group
        ⟨0, .zero, .zero, zero, zero, .deterministic, [], []⟩ .epoch .succeeded b r
      exact ⟨x, b', serves, fun task y he => absurd ⟨task, congrArg Exchange.request he.symm⟩ hr⟩
  refine ⟨x, b', fun es b'' h => ⟨.cons serves h.1, fun task y he => ?_⟩⟩
  rcases List.mem_cons.mp he with he | he
  · exact hx task y he
  · exact h.2 task y he

/-- **An iteration through an open handle comes to its end.** -/
theorem exists_iterates (c : Config) (draw : Draw ν) (token : CancelToken)
    (handled : String → Bool) (b : State) :
    ∃ o t b', Iterates c draw token handled ⟨b, false⟩ o t ⟨b', false⟩ := by
  cases hr : b.receive c.topics.active c.group with | mk o b' =>
  cases o with
  | none =>
    have turned : (turn c draw token).Ends [⟨.receive c.pollTimeout, .nothing⟩] (.goOn ()) :=
      .ask _ _ (.done _)
    exact ⟨none, _, b', .idle turned (.cons (.nothing _ hr) (.nil _))⟩
  | some d =>
    obtain ⟨es, r, b'', processed, serving, consulted⟩ := exists_consulted c.topics.active c.group
      handled (process c draw token d) b'
    exact ⟨some d, _, b'', .delivered (turn_delivery_iff.mpr ⟨rfl, r, processed, rfl⟩) consulted
      (.cons (.delivered _ hr) serving)⟩

/-- **Iterations one after the other**, and what each was handed. Nobody else uses the broker. -/
inductive Iterations (c : Config) (draw : Draw ν) (token : CancelToken)
    (handled : String → Bool) : Port → List (Option Delivery) → Port → Prop where
  | nil (p : Port) : Iterations c draw token handled p [] p
  /-- The loop ends. -/
  | last {p p' : Port} {o : Option Delivery} {x : Except Failure Unit}
      (h : Iterates c draw token handled p o (.ended x) p') :
      Iterations c draw token handled p [o] p'
  | goOn {p p' p'' : Port} {o : Option Delivery} {os : List (Option Delivery)}
      (h : Iterates c draw token handled p o (.goOn ()) p')
      (rest : Iterations c draw token handled p' os p'') :
      Iterations c draw token handled p (o :: os) p''

/-- Where the log has its first unrouted message; its end if there is none. -/
def blocker (handled : String → Bool) (ms : List Message) : Nat := ms.findIdx (unrouted handled)

/-- **What iteration `n` is handed**: message `n`, up to the first one that is unrouted, and then
that one once more. The count is of 32 bits. -/
def handOut (topic : String) (handled : String → Bool) (ms : List Message) (n : Nat) :
    Option Delivery :=
  ms[min n (blocker handled ms)]?.map fun m =>
    ⟨State.position topic (min n (blocker handled ms)), m, .ofNat (n - blocker handled ms + 1)⟩

variable {topic group : String} {ms : List Message} {b : State}

theorem exists_handOut (topic : String) (h : min n (blocker handled ms) < ms.length) :
    ∃ d, handOut topic handled ms n = some d := by
  unfold handOut
  rw [List.getElem?_eq_getElem h]
  exact ⟨_, rfl⟩

theorem handOut_lt (h : handOut topic handled ms n = some d) :
    min n (blocker handled ms) < ms.length := by
  obtain ⟨m, hm, -⟩ := Option.map_eq_some_iff.mp h
  exact (List.getElem?_eq_some_iff.mp hm).1

/-- Of the messages that are handed out, the blocker is unrouted and no other is. -/
theorem unrouted_eq {m : Message} (hle : i ≤ blocker handled ms) (hm : ms[i]? = some m) :
    unrouted handled m = decide (i = blocker handled ms) := by
  obtain ⟨hlt, rfl⟩ := List.getElem?_eq_some_iff.mp hm
  by_cases hi : i = blocker handled ms
  · subst hi
    rw [decide_eq_true rfl]
    exact List.findIdx_getElem
  · rw [decide_eq_false hi]
    exact List.not_of_lt_findIdx (Nat.lt_of_le_of_ne hle hi)

/-- The log began with `ms`, and the group has been handed out `n` deliveries since it began. -/
structure Reached (handled : String → Bool) (ms : List Message) (topic group : String) (n : Nat)
    (b : State) : Prop where
  log : ms <+: b.messages topic
  within : (b.groupOf topic group).Within (b.messages topic).length
  progress : (b.groupOf topic group).Progress (blocker handled ms) n

theorem reached_zero (log : b.messages topic = ms) (fresh : b.groupOf topic group = .fresh) :
    Reached handled ms topic group 0 b where
  log := log ▸ List.prefix_refl _
  within := fresh ▸ Group.within_fresh _
  progress := fresh ▸ .before (Nat.zero_le _) rfl rfl

/-- **What is handed out next**, and how far the group has come once that was given back or settled.
-/
theorem Reached.receive {b' : State} {o : Option Delivery}
    (h : Reached handled ms topic group n b) (hd : handOut topic handled ms n = some d)
    (hr : b.receive topic group = (o, b')) :
    o = some d ∧ ∃ i, d.position = State.position topic i ∧ ∀ b'', b'.Grows b'' →
      b''.groupOf topic group = (b'.groupOf topic group).resolve i (unrouted handled d.message) →
      Reached handled ms topic group (n + 1) b'' := by
  obtain ⟨i, g, htake⟩ := h.progress.exists_take
    (Nat.lt_of_lt_of_le (handOut_lt hd) h.log.length_le)
  obtain ⟨e, he⟩ := State.exists_receive h.within htake
  obtain rfl : o = some e := (congrArg Prod.fst hr).symm.trans he
  obtain ⟨j, g', taken⟩ := State.receive_taken hr
  obtain ⟨rfl, rfl⟩ := Prod.mk.inj (Option.some.inj (taken.taken.symm.trans htake))
  obtain ⟨hj, hcount, hprogress⟩ := h.progress.take h.within htake
  -- it is the message that the log began with
  obtain ⟨m, hm, hmd⟩ := Option.map_eq_some_iff.mp hd
  rw [← hj] at hm hmd
  obtain ⟨hlt, hmj⟩ := List.getElem?_eq_some_iff.mp hm
  have hlog := List.prefix_iff_getElem?.mp h.log j hlt
  have hread : e.message = m := (Option.some.inj (taken.read.symm.trans hlog)).trans hmj
  obtain rfl : e = d := by rw [← hmd, ← hread, ← hcount, ← taken.position, ← taken.count]
  refine ⟨rfl, j, taken.position, fun b'' hgrows hafter => ?_⟩
  have hgroup := taken.groupOf topic group
  rw [if_pos ⟨rfl, rfl⟩] at hgroup
  have hlonger := hgrows topic
  rw [hread, unrouted_eq (hj ▸ Nat.min_le_right _ _) hm, hgroup] at hafter
  rw [taken.messages] at hlonger
  refine ⟨h.log.trans hlonger, ?_, hafter ▸ hprogress⟩
  rw [hafter]
  exact ((h.within.take htake).mono hlonger.length_le).resolve

/-- **One iteration** gets what `handOut` says, and if the loop goes on, the next one will. -/
theorem Reached.iterate {o : Option Delivery} {t : Turn Unit Failure}
    (rule : c.unknownTask = .requeue)
    (h : Reached handled ms c.topics.active c.group n p.broker)
    (hd : handOut c.topics.active handled ms n = some d)
    (hi : Iterates c draw token handled p o t p') :
    o = some d ∧
      (t = .goOn () → Reached handled ms c.topics.active c.group (n + 1) p'.broker) := by
  cases hi with
  | idle turn serving =>
    obtain ⟨q, q', -, serves, -⟩ := serving_cons_iff.mp serving
    cases serves with
    | nothing _ hr => exact nomatch (h.receive hd hr).1
    | elsewhere _ hn => cases hn
  | delivered turn consulted serving =>
    obtain ⟨q, q', -, serves, hs⟩ := serving_cons_iff.mp serving
    obtain ⟨-, -, hr⟩ := serves_delivery serves
    obtain ⟨he, i, hposition, next⟩ := h.receive hd hr
    cases he
    refine ⟨rfl, fun ht => ?_⟩
    obtain ⟨-, r, processed, rfl⟩ := turn_delivery_iff.mp turn
    obtain ⟨o, rfl⟩ := nextTurn_eq_goOn ht
    exact next p'.broker hs.grows (process_groupOf rule processed consulted hposition hs)

/-- **A run of iterations** gets what `handOut` says, one after the other. -/
theorem Iterations.handed {os : List (Option Delivery)} (rule : c.unknownTask = .requeue)
    (h : Iterations c draw token handled p os p')
    (reached : Reached handled ms c.topics.active c.group n p.broker) :
    ∀ i < os.length, ∀ d, handOut c.topics.active handled ms (n + i) = some d →
      os[i]? = some (some d) := by
  induction h generalizing n with
  | nil => exact nofun
  | last h =>
    intro i hi d hd
    obtain rfl : i = 0 := Nat.lt_one_iff.mp hi
    rw [(reached.iterate rule hd h).1]
    rfl
  | goOn h _ ih =>
    intro i hi d hd
    -- a message that is handed out later is preceded by others
    have hlt := handOut_lt hd
    obtain ⟨d', hd'⟩ := exists_handOut c.topics.active
      (show min n (blocker handled ms) < ms.length by omega)
    obtain ⟨rfl, hnext⟩ := reached.iterate rule hd' h
    cases i with
    | zero => rw [← hd', ← hd]; rfl
    | succ i =>
      have hshift : n + (i + 1) = n + 1 + i := by omega
      exact ih (hnext rfl) i (Nat.lt_of_succ_lt_succ hi) d (hshift ▸ hd)

end

/-! ## Two messages -/

/-- What is exchanged while a delivery is handed back. -/
def handingBack (c : Config) (p : Policy ν) (d : Delivery) : Exchanges ν :=
  [⟨.count .processed, ()⟩, ⟨.now, .epoch⟩, ⟨.policy, p⟩, ⟨.now, .epoch⟩,
    ⟨.handles d.message.key, false⟩, ⟨.pause c.requeueDelay, ()⟩, ⟨.reject d true, .ok ()⟩,
    ⟨.count .skipped, ()⟩]

theorem process_handingBack [Number.Arithmetic ν] {c : Config} {draw : Draw ν}
    {token : CancelToken} {payload : Payload} {id : String} (p : Policy ν)
    (rule : c.unknownTask = .requeue) (hid : d.message.header? Header.correlationId = some id)
    (hread : Payload.ofWire d.message.payload = .ok payload) :
    (process c draw token d).Ends (handingBack c p d) (.ok .requeued) := by
  refine process_ends_iff.mpr ⟨_, _, [], _, id, rfl, identify_named hid, ?_⟩
  unfold resolve
  simp only [hread]
  refine .ask _ _ (.ask _ _ ?_)
  change (resolveUnknown c d).Ends _ _
  unfold resolveUnknown
  rw [rule]
  exact .ask _ _ (.ask _ _ (.ask _ _ (.done _)))

/-- An iteration that hands its delivery back. -/
theorem iterates_handingBack [Number.Arithmetic ν] {c : Config} {draw : Draw ν}
    {token : CancelToken} {b b' : State} {payload : Payload} {id : String} (p : Policy ν)
    (rule : c.unknownTask = .requeue) (hid : d.message.header? Header.correlationId = some id)
    (hread : Payload.ofWire d.message.payload = .ok payload)
    (unhandled : handled d.message.key = false)
    (hr : b.receive c.topics.active c.group = (some d, b'))
    (hd : d.position = State.position c.topics.active i) (hi : i ≤ Text.maxNat64) :
    Iterates c draw token handled ⟨b, false⟩ (some d) (.goOn ())
      ⟨b'.changeGroup c.topics.active c.group (·.requeue i), false⟩ := by
  have processed : (process c draw token d).Ends (handingBack c p d) (.ok .requeued) :=
    process_handingBack p rule hid hread
  have hreject := State.reject_position b' c.topics.active c.group true hi
  rw [← hd] at hreject
  refine .delivered (turn_delivery_iff.mpr ⟨rfl, _, processed, rfl⟩) (fun task b hmem => ?_) ?_
  · obtain ⟨rfl, rfl⟩ : task = d.message.key ∧ b = false := by simpa [handingBack] using hmem
    exact unhandled.symm
  · exact .cons (.delivered _ hr) (.cons (.elsewhere _ rfl) (.cons (.elsewhere _ rfl)
      (.cons (.elsewhere _ rfl) (.cons (.elsewhere _ rfl) (.cons (.elsewhere _ rfl)
      (.cons (.elsewhere _ rfl) (.cons (.rejected _ hreject) (.cons (.elsewhere _ rfl)
      (.nil _)))))))))

/-- A worker that hands back what it has no handler for. -/
def patientConfig : Config :=
  ⟨⟨"ready", "waiting", "dead"⟩, "workers", .zero, .requeue, .zero, Policy.noRetry⟩

/-- The only task with a handler is `resize`. -/
def resizeOnly (task : String) : Bool := task == "resize"

/-- A message for a task, without arguments. -/
def plainMessage (task : String) : Message :=
  (⟨task, Payload.toWire ∅, ∅⟩ : Message).setHeader Header.correlationId "a"

/-- A message that nobody handles and one for `resize`, in this order. -/
def nobodyFirst : List Message := [plainMessage "nobody", plainMessage "resize"]

/-- The broker to which they were published. -/
def nobodyFirstBroker : State :=
  ((∅ : State).publish "ready" (plainMessage "nobody")).publish "ready" (plainMessage "resize")

/-- The first of them, handed out for the `n`th time. -/
def nobodyAgain (n : UInt32) : Delivery := ⟨State.position "ready" 0, plainMessage "nobody", n⟩

/-- An iteration that gets the first message and hands it back. -/
theorem iterates_nobodyAgain {b : State} {n : UInt32}
    (h : (b.receive "ready" "workers").1 = some (nobodyAgain n)) :
    Iterates (ν := Number.Double) patientConfig id .never resizeOnly ⟨b, false⟩
      (some (nobodyAgain n)) (.goOn ())
      ⟨(b.receive "ready" "workers").2.changeGroup "ready" "workers" (·.requeue 0), false⟩ := by
  have hread : Payload.ofWire (nobodyAgain n).message.payload = .ok ∅ := rfl
  exact iterates_handingBack Policy.noRetry rfl rfl hread rfl (Prod.ext h rfl) rfl (Nat.zero_le _)

/-- Two iterations that both get the first message. -/
theorem iterations_nobodyFirst : ∃ p', Iterations (ν := Number.Double) patientConfig id .never
    resizeOnly ⟨nobodyFirstBroker, false⟩ [some (nobodyAgain 1), some (nobodyAgain 2)] p' := by
  have first := iterates_nobodyAgain (b := nobodyFirstBroker) (n := 1) rfl
  have second := iterates_nobodyAgain (n := 2) (b := (nobodyFirstBroker.receive "ready"
    "workers").2.changeGroup "ready" "workers" (·.requeue 0)) rfl
  exact ⟨_, .goOn first (.goOn second (.nil _))⟩

/-! ## The result -/

/-- Message `i` was handed out. -/
def HandedOut (topic : String) (ms : List Message) (os : List (Option Delivery)) (i : Nat) : Prop :=
  ∃ d, some d ∈ os ∧ d.position = State.position topic i ∧ ms[i]? = some d.message

theorem length_le_blocker_iff {ms : List Message} :
    ms.length ≤ blocker handled ms + 1 ↔ ∀ m ∈ ms.dropLast, unrouted handled m = false := by
  constructor
  · intro hle m hm
    obtain ⟨j, hj, rfl⟩ := List.mem_iff_getElem.mp hm
    rw [List.length_dropLast] at hj
    rw [List.getElem_dropLast]
    exact List.not_of_lt_findIdx (show j < blocker handled ms by omega)
  · intro hnone
    by_contra hlt
    have hf : blocker handled ms < ms.dropLast.length := by
      rw [List.length_dropLast]
      omega
    have hrouted := hnone _ (List.getElem_mem hf)
    rw [List.getElem_dropLast, unrouted_eq (Nat.le_refl _) (List.getElem?_eq_getElem _)] at hrouted
    simp at hrouted

/-- Iterations that get what `handOut` says, as many as there are messages, hand out all of them
exactly when the blocker is the last one or there is none. -/
theorem all_handedOut_iff {topic : String} {ms : List Message} {os : List (Option Delivery)}
    (handed : ∀ n < os.length, ∀ d, handOut topic handled ms n = some d → os[n]? = some (some d))
    (hlen : ms.length ≤ os.length) :
    (∀ i < ms.length, HandedOut topic ms os i) ↔ ms.length ≤ blocker handled ms + 1 := by
  constructor
  · intro hall
    by_contra hlt
    -- what comes after the blocker is handed out by some iteration, which gets the blocker at most
    obtain ⟨d, hd, hposition, -⟩ := hall (blocker handled ms + 1) (by omega)
    obtain ⟨n, hn, hdn⟩ := List.mem_iff_getElem.mp hd
    obtain ⟨d', hd'⟩ := exists_handOut topic
      (show min n (blocker handled ms) < ms.length by omega)
    have hsame := handed n hn d' hd'
    rw [List.getElem?_eq_getElem hn, hdn] at hsame
    obtain rfl : d = d' := Option.some.inj (Option.some.inj hsame)
    obtain ⟨m, -, rfl⟩ := Option.map_eq_some_iff.mp hd'
    have hindex := State.position_injective hposition
    omega
  · intro hle i hi
    have hmin : min i (blocker handled ms) = i := by omega
    have hd : handOut topic handled ms i =
        some ⟨State.position topic i, ms[i], .ofNat (i - blocker handled ms + 1)⟩ := by
      unfold handOut
      rw [hmin, List.getElem?_eq_getElem hi]
      rfl
    exact ⟨_, List.mem_of_getElem? (handed i (by omega) _ hd), rfl, List.getElem?_eq_getElem hi⟩

/-- **What a worker that hands unrouted messages back gets to see of a log** that nobody else reads.
Every iteration comes to its end. Iteration `n` is handed message `n` up to the first unrouted one,
and from then on every iteration is handed that one once more. So as many iterations as there are
messages hand out each of them exactly when none but the last is unrouted. -/
theorem handed_out_up_to_unrouted [Number.Arithmetic ν] {c : Config} {draw : Draw ν}
    {token : CancelToken} {p p' : Port} {ms : List Message} {os : List (Option Delivery)}
    (rule : c.unknownTask = .requeue) (log : p.broker.messages c.topics.active = ms)
    (fresh : p.broker.groupOf c.topics.active c.group = .fresh)
    (h : Iterations c draw token handled p os p') :
    (∀ b, ∃ o t b', Iterates c draw token handled ⟨b, false⟩ o t ⟨b', false⟩) ∧
    (∀ n < os.length, ∀ d, handOut c.topics.active handled ms n = some d →
      os[n]? = some (some d)) ∧
    (ms.length ≤ os.length → ((∀ i < ms.length, HandedOut c.topics.active ms os i) ↔
      ∀ m ∈ ms.dropLast, unrouted handled m = false)) := by
  have handed : ∀ n < os.length, ∀ d, handOut c.topics.active handled ms n = some d →
      os[n]? = some (some d) := by
    have hall := h.handed rule (reached_zero log fresh)
    simpa only [Nat.zero_add] using hall
  exact ⟨exists_iterates c draw token handled, handed,
    fun hlen => (all_handedOut_iff handed hlen).trans length_le_blocker_iff⟩

/-- Two iterations hand out the first of two messages twice, so not both. -/
theorem nobody_handed_out_twice :
    ∃ (os : List (Option Delivery)) (p' : Port), patientConfig.unknownTask = .requeue ∧
      nobodyFirstBroker.messages "ready" = nobodyFirst ∧
      nobodyFirstBroker.groupOf "ready" "workers" = .fresh ∧
      Iterations (ν := Number.Double) patientConfig id .never resizeOnly ⟨nobodyFirstBroker, false⟩
        os p' ∧
      os.length = 2 ∧ os[1]? = some (some (nobodyAgain 2)) ∧
      ¬ ∀ i < 2, HandedOut "ready" nobodyFirst os i := by
  obtain ⟨p', h⟩ := iterations_nobodyFirst
  have log : nobodyFirstBroker.messages "ready" = nobodyFirst := rfl
  obtain ⟨-, handed, all_iff⟩ := handed_out_up_to_unrouted rfl log rfl h
  refine ⟨_, p', rfl, log, rfl, h, rfl, handed 1 (by decide) _ rfl, fun hall => ?_⟩
  have hrouted := (all_iff (Nat.le_refl 2)).mp hall (plainMessage "nobody") List.mem_cons_self
  exact Bool.false_ne_true (hrouted.symm.trans rfl)

/-- **A message behind an unrouted one is not handed out** by as many iterations as there are
messages. -/
theorem second_message_never_handed_out :
    ∃ (c : Config) (handled : String → Bool) (ms : List Message) (b : State)
      (os : List (Option Delivery)) (p' : Port), c.unknownTask = .requeue ∧
      b.messages c.topics.active = ms ∧ b.groupOf c.topics.active c.group = .fresh ∧
      Iterations (ν := Number.Double) c id .never handled ⟨b, false⟩ os p' ∧
      os.length = ms.length ∧ ∃ i < ms.length, ¬ HandedOut c.topics.active ms os i := by
  obtain ⟨p', h⟩ := iterations_nobodyFirst
  refine ⟨patientConfig, resizeOnly, nobodyFirst, nobodyFirstBroker, _, p', rfl, rfl, rfl, h, rfl,
    1, by decide, ?_⟩
  rintro ⟨d, hd, hposition, -⟩
  -- both iterations got the message at index 0
  have hfirst : d.position = State.position "ready" 0 := by
    rcases List.mem_cons.mp hd with hd | hd
    · rw [Option.some.inj hd]
      rfl
    · rw [Option.some.inj (List.mem_singleton.mp hd)]
      rfl
  exact absurd (State.position_injective (hposition.symm.trans hfirst)) (by decide)

end TaskQueue.Worker
