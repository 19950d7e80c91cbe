import TaskQueue.Proofs.Client.Enqueue
import TaskQueue.Proofs.Ledger.Balance
import TaskQueue.Proofs.Ledger.Progress
import TaskQueue.Proofs.Ledger.System
import TaskQueue.Proofs.Promotion.DelayQueue
import TaskQueue.Proofs.Promotion.DueTime
import TaskQueue.Proofs.Promotion.Promote
import TaskQueue.Proofs.Worker.Effect

/-!
# No task is lost or duplicated

In every state that some order of steps leads to, every accepted task is at exactly one place: it is
one entry that is not settled, or it is resolved. Steps that fail leave what they did not forward
pending.

The invariant is `Accounted`: the books are balanced, every identifier on them was given out, and
the promoters hold different entries, each of them out.

Results:

* `Balanced.effect`: whatever processing a delivery does to the broker keeps the books balanced;
* `Balanced.promote`: so does promoting a batch, also when it ends in the middle;
* `Step.accounted`, `Reachable.accounted`: one step, and every run, keeps all accounted for;
* `every_task_at_one_place`: the result.
-/

namespace TaskQueue.Ledger

open Broker Engine Promotion Time

variable {ν : Type} {q : Setup} {l : Books} {lane : Lane} {i j : Nat} {d d' : Delivery}
  {id : String}

/-! ## Taking a delivery -/

/-- A delivery that is received is out, its index has a position, and the books stay balanced. -/
theorem Balanced.receive {g : String} {wait : Span} {p p' : Port} {es : Exchanges ν}
    (h : Balanced q l) (lane : Lane) (hg : q.group? lane = some g) (hb : p.broker = l.broker)
    (hs : Serving (q.topic lane) g p (⟨.receive wait, .delivery d⟩ :: es) p') :
    ∃ b i c, Balanced q { l with broker := b } ∧ Out q b lane d i ∧
      (∀ t, b.messages t = l.broker.messages t) ∧ Serving (q.topic lane) g ⟨b, c⟩ es p' ∧
      ∀ lane' d' j, Out q l.broker lane' d' j → Out q b lane' d' j ∧ (lane = lane' → i ≠ j) := by
  obtain ⟨c, p₁, -, h₁, hs⟩ := serving_cons_iff.mp hs
  obtain ⟨-, -, hr⟩ := serves_delivery h₁
  rw [hb] at hr
  obtain ⟨i, grp, ht⟩ := State.receive_taken hr
  obtain ⟨hbal, hout⟩ := h.take hg ht
  exact ⟨p₁.broker, i, p₁.closed, hbal, hout, ht.messages, hs,
    fun lane' d' j hd' => hd'.take hg (h.sound lane g hg) ht⟩

/-- The position of a delivery that is out is that of an index of 64 bits. -/
theorem Out.le_of_grows {b b' : State} (h : Out q b lane d i) (hb : b.Grows b') (hf : b'.Fits) :
    i ≤ Text.maxNat64 :=
  hf.index_le (hb.getElem? h.read)

theorem Out.named (h : Out q l.broker lane d i) (hbal : Balanced q l) :
    ∃ id ∈ l.accepted, d.message.header? Header.correlationId = some id :=
  hbal.named lane d.message (List.mem_of_getElem? h.read)

/-! ## Workers -/

/-- **Whatever processing a delivery does to the broker keeps the books balanced**, and leaves every
other delivery out. -/
theorem Balanced.effect {b' : State} {r : Worker.Resolution} {tasks : List String}
    (h : Balanced q l) (out : Out q l.broker .active d i)
    (hid : d.message.header? Header.correlationId = some id)
    (he : Worker.Effect q.topics q.workers d i id l.broker r tasks b') :
    Balanced q { l with broker := b', resolved := l.resolved ++ tasks } ∧
      ∀ lane' d' j, Out q l.broker lane' d' j → (Lane.active = lane' → i ≠ j) →
        Out q b' lane' d' j := by
  have hg : q.group? .active = some q.workers := rfl
  cases he with
  | failed f =>
    refine ⟨?_, fun lane' d' j hd' _ => hd'⟩
    simp only [List.append_nil]
    exact h
  | settled done resolves =>
    refine ⟨?_, fun lane' d' j hd' hne => hd'.settle hne q.workers⟩
    rw [resolves hid]
    exact h.resolve hg out hid
  | requeued =>
    refine ⟨?_, fun lane' d' j hd' hne => hd'.requeue hne q.workers⟩
    simp only [List.append_nil]
    exact h.requeue hg out
  | @forwarded o topic m route named =>
    refine ⟨?_, fun lane' d' j hd' hne => (hd'.publish topic m).settle hne q.workers⟩
    simp only [List.append_nil]
    rcases route with ⟨-, rfl⟩ | ⟨-, rfl⟩
    · exact h.forward .delayed hg out hid named
    · exact h.forward .deadLetter hg out hid named

/-! ## Promoters -/

/-- Promoting one delivery keeps the books balanced, and leaves those at other positions out. -/
theorem Balanced.promoteOne {b : State} (h : Balanced q { l with broker := b })
    (out : Out q b .delayed d i) (now : Instant) :
    Balanced q { l with
      broker := (b.publish q.topics.active (promotedCopy d.message now)).changeGroup
        q.topics.delayed q.promoters (·.settle i) } ∧
    ∀ lane d' j, Out q b lane d' j → d'.position ≠ d.position →
      Out q ((b.publish q.topics.active (promotedCopy d.message now)).changeGroup
        q.topics.delayed q.promoters (·.settle i)) lane d' j := by
  obtain ⟨id, -, hid⟩ := out.named h
  have hcopy : (promotedCopy d.message now).header? Header.correlationId = some id := by
    rw [header?_promotedCopy (by decide), hid]
  refine ⟨h.forward .active rfl out hid hcopy, fun lane d' j hd' hne => ?_⟩
  -- a delivery with another position has another index
  have hij : Lane.delayed = lane → i ≠ j := by
    rintro rfl rfl
    exact hne (hd'.position.trans out.position.symm)
  exact (hd'.publish _ _).settle hij q.promoters

/-- **Promoting a batch keeps the books balanced**, also when it ends in the middle. What comes
before the end is published, and what comes after is still out. -/
theorem Balanced.promote {now : Instant} {ds : List Delivery} {es : Exchanges ν}
    {r : Except TransportError Unit} {p p' : Port} (hp : Promoted q.topics.active now ds es r)
    (hf : p'.broker.Fits) (hs : Serving q.topics.delayed q.promoters p es p')
    (h : Balanced q { l with broker := p.broker })
    (hout : ∀ d ∈ ds, ∃ i, Out q p.broker .delayed d i)
    (hnodup : (ds.map Delivery.position).Nodup) :
    Balanced q { l with broker := p'.broker } ∧
    (∀ lane d' j, Out q p.broker lane d' j → d'.position ∉ ds.map Delivery.position →
      Out q p'.broker lane d' j) ∧
    ∃ done rest, ds = done ++ rest ∧
      p'.broker.messages q.topics.active =
        p.broker.messages q.topics.active ++ done.map (fun d => promotedCopy d.message now) ∧
      (∀ d ∈ rest, ∃ i, Out q p'.broker .delayed d i) ∧ (r = .ok () ↔ rest = []) := by
  induction hp generalizing p with
  | nil =>
    obtain ⟨hb, -⟩ := serving_nil_iff.mp hs
    rw [hb]
    refine ⟨h, fun lane d' j hd' _ => hd', [], [], rfl, ?_, nofun, by simp⟩
    rw [List.map_nil, List.append_nil]
  | refused d ds e =>
    rcases serving_publish_cons hs with ⟨he, -, -⟩ | ⟨-, hs⟩
    · cases he
    · obtain ⟨hb, -⟩ := serving_nil_iff.mp hs
      rw [hb]
      refine ⟨h, fun lane d' j hd' _ => hd', [], d :: ds, rfl, ?_, hout, by simp⟩
      rw [List.map_nil, List.append_nil]
  | stuck d ds e =>
    obtain ⟨i, out⟩ := hout d List.mem_cons_self
    rcases serving_publish_cons hs with ⟨-, -, hs⟩ | ⟨he, -⟩
    · have hi := out.le_of_grows (State.grows_publish p.broker _ _ |>.trans hs.grows) hf
      cases (serving_ack_cons out.position hi hs).1
    · cases he
  | @cons d ds es r hp ih =>
    obtain ⟨i, out⟩ := hout d List.mem_cons_self
    have hi := out.le_of_grows hs.grows hf
    rcases serving_publish_cons hs with ⟨-, -, hs⟩ | ⟨he, -⟩
    · obtain ⟨-, c, -, hs⟩ := serving_ack_cons out.position hi hs
      obtain ⟨hbal, keep⟩ := h.promoteOne out now
      rw [List.map_cons, List.nodup_cons] at hnodup
      obtain ⟨hbal', hkeep, done, rest, rfl, hmsg, hrest, hr⟩ := ih hs hbal
        (fun d' hd' => by
          obtain ⟨j, out'⟩ := hout d' (List.mem_cons_of_mem _ hd')
          refine ⟨j, keep _ d' j out' fun he => hnodup.1 ?_⟩
          exact List.mem_map.mpr ⟨d', hd', he⟩) hnodup.2
      refine ⟨hbal', ?_, d :: done, rest, rfl, ?_, hrest, hr⟩
      · intro lane d' j hd' hne
        rw [List.map_cons, List.mem_cons, not_or] at hne
        exact hkeep lane d' j (keep lane d' j hd' hne.1) hne.2
      · rw [hmsg, State.messages_changeGroup, State.messages_publish_self, List.append_assoc]
        rfl
    · cases he

/-! ## All components together -/

/-- The positions that a promoter holds. -/
def heldPositions (w : Held) : List Position := w.waiting.map fun v => v.item.position

/-- **All is accounted for**: the books are balanced, what was accepted was given an identifier, and
the promoters hold different deliveries, each of them out. -/
structure Accounted (q : Setup) (s : System) : Prop where
  balanced : Balanced q s.toBooks
  issued : ∀ id ∈ s.accepted, id ∈ s.issued
  out : ∀ n, ∀ v ∈ (s.held n).waiting, ∃ i, Out q s.broker .delayed v.item i
  apart : ∀ n, (heldPositions (s.held n)).Nodup
  between : ∀ n n' x, x ∈ heldPositions (s.held n) → x ∈ heldPositions (s.held n') → n = n'

theorem start_accounted (q : Setup) : Accounted q .start where
  balanced := {
    sound := fun _ _ _ => Group.fresh_sound _
    named := fun _ _ hm => nomatch hm
    known := fun _ hid => nomatch hid
    once := fun _ hid => nomatch hid }
  issued := fun _ hid => nomatch hid
  out := fun _ _ hv => nomatch hv
  apart := fun _ => List.nodup_nil
  between := fun _ _ _ hx => nomatch hx

variable {s s' : System} {e : Event}

/-- What promoters hold stays accounted for when nobody settles it. -/
theorem Accounted.keep (h : Accounted q s) (hbal : Balanced q s'.toBooks)
    (hiss : ∀ id ∈ s'.accepted, id ∈ s'.issued) (hheld : s'.held = s.held)
    (hout : ∀ d j, Out q s.broker .delayed d j → Out q s'.broker .delayed d j) :
    Accounted q s' where
  balanced := hbal
  issued := hiss
  out := by
    intro n v hv
    rw [hheld] at hv
    obtain ⟨i, hi⟩ := h.out n v hv
    exact ⟨i, hout _ i hi⟩
  apart := by
    rw [hheld]
    exact h.apart
  between := by
    rw [hheld]
    exact h.between

/-- A client's message was published and its task accepted, or nothing happened. -/
theorem Accounted.post {n : Nat} {topic group : String} {es : Exchanges ν}
    {r : Except Client.ClientError String} {p : Port} (h : Accounted q s)
    (hr : Client.Posted q.topics es r) (served : Serving topic group (s.port (.client n)) es p)
    (new : ∀ id ∈ es.newIds, id ∉ s.issued) :
    Accounted q { s.after (.client n) p es with accepted := acceptedBy r ++ s.accepted } := by
  have hs := serving_transport served
  have hissued : ∀ id ∈ s.accepted, id ∈ es.newIds ++ s.issued :=
    fun id hid => List.mem_append_right _ (h.issued id hid)
  -- when nothing was published, nothing was accepted
  have unchanged (hb : p.broker = s.broker) (ha : acceptedBy r = []) :
      Accounted q { s.after (.client n) p es with accepted := acceptedBy r ++ s.accepted } := by
    refine h.keep ?_ ?_ rfl fun d j hd => ?_
    · simp only [System.after, hb, ha, List.nil_append]
      exact h.balanced
    · simp only [System.after, ha, List.nil_append]
      exact hissued
    · simp only [System.after, hb]
      exact hd
  cases hr with
  | unasked e idle =>
    rw [idle] at hs
    obtain ⟨hb, -⟩ := serving_nil_iff.mp hs
    exact unchanged hb rfl
  | @sent topic' m id x lane named hid published =>
    rw [published] at hs
    rcases serving_publish_cons hs with ⟨rfl, -, hs'⟩ | ⟨rfl, hs'⟩
    · obtain ⟨hb, -⟩ := serving_nil_iff.mp hs'
      have hnew : id ∉ s.accepted := fun hmem =>
        new id (by rw [hid]; exact List.mem_cons_self) (h.issued id hmem)
      obtain ⟨lane, rfl⟩ : ∃ lane, topic' = q.topic lane := by
        rcases lane with rfl | rfl
        · exact ⟨.active, rfl⟩
        · exact ⟨.delayed, rfl⟩
      refine h.keep ?_ ?_ rfl fun d j hd => ?_
      · simp only [System.after, hb, Client.answered, acceptedBy]
        exact h.balanced.accept named hnew
      · intro id' hid'
        simp only [System.after, Client.answered, acceptedBy] at hid' ⊢
        rcases List.mem_append.mp hid' with hid' | hid'
        · rw [hid]
          exact List.mem_append_left _ hid'
        · exact hissued id' hid'
      · simp only [System.after, hb]
        exact hd.publish _ m
    · obtain ⟨hb, -⟩ := serving_nil_iff.mp hs'
      exact unchanged hb rfl

/-- The identifier of a delivery that is out is the one in its header. -/
theorem Identified.header {es : Exchanges ν} (h : Worker.Identified d id es)
    (hbal : Balanced q l) (out : Out q l.broker lane d i) :
    d.message.header? Header.correlationId = some id := by
  obtain ⟨id', -, hid'⟩ := out.named hbal
  rcases h with ⟨hid, -⟩ | ⟨hid, -⟩
  · exact hid
  · rw [hid] at hid'
    cases hid'

variable [Number.Arithmetic ν]

/-- **What a worker's step does**: its delivery was out, and processing has one of the effects. -/
theorem Accounted.work {n : Nat} {c : Worker.Config} {draw : Retry.Draw ν} {token : CancelToken}
    {wait : Span} {es : Exchanges ν} {r : Worker.Resolution} {p : Port} (h : Accounted q s)
    (hf : p.broker.Fits) (topics : c.topics = q.topics)
    (run : (Worker.process c draw token d).Ends es r)
    (served : Serving q.topics.active q.workers (s.port (.worker n))
      (⟨.receive wait, .delivery d⟩ :: es) p) :
    ∃ b i id, Balanced q { s.toBooks with broker := b } ∧ Out q b .active d i ∧
      d.message.header? Header.correlationId = some id ∧ (∀ t, b.messages t = s.broker.messages t) ∧
      (∀ d' j, Out q s.broker .delayed d' j → Out q b .delayed d' j) ∧
      Worker.Effect q.topics q.workers d i id b r (Worker.resolvedBy c d es) p.broker := by
  obtain ⟨b, i, c', hbal, out, hmsg, hs, keep⟩ :=
    h.balanced.receive .active rfl rfl served
  obtain ⟨pol, id, receivedAt, -, -, hid, hp⟩ := Worker.process_ends run
  have hid := Identified.header hid hbal out
  have hi := out.le_of_grows hs.grows hf
  exact ⟨b, i, id, hbal, out, hid, hmsg, fun d' j hd' => (keep .delayed d' j hd').1,
    Worker.process_effect topics out.position hi hp (Worker.process_lookups run) hs⟩

/-- One more delivery is held. -/
theorem heldPositions_push (w : Held) (due : Instant) (d : Delivery) :
    (heldPositions (w.push due d)).Perm (d.position :: heldPositions w) :=
  (DelayQueue.perm_push _ _ _).map _

/-- What is held is what is due and what stays. -/
theorem heldPositions_split (w : Held) (now : Instant) :
    heldPositions w =
      (w.takeDue now).map Delivery.position ++ heldPositions (w.dropDue now) := by
  have h := congrArg (List.map Delivery.position) (w.takeDue_append now)
  rw [List.map_append, List.map_map, List.map_map] at h
  exact h.symm

omit [Number.Arithmetic ν] in
/-- All stays accounted for when one promoter holds other deliveries, which are out, and of which
each was its own before or nobody's. -/
theorem Accounted.rehold {n : Nat} {w : Held} {es : Exchanges ν} {p : Port} (h : Accounted q s)
    (hbal : Balanced q { s.toBooks with broker := p.broker })
    (hw : ∀ v ∈ w.waiting, ∃ i, Out q p.broker .delayed v.item i) (hn : (heldPositions w).Nodup)
    (hx : ∀ x ∈ heldPositions w, x ∈ heldPositions (s.held n) ∨ ∀ n', x ∉ heldPositions (s.held n'))
    (hothers : ∀ n', n' ≠ n → ∀ v ∈ (s.held n').waiting, ∃ i, Out q p.broker .delayed v.item i) :
    Accounted q ((s.after (.promoter n) p es).holding n w) where
  balanced := hbal
  issued := fun id hid => List.mem_append_right _ (h.issued id hid)
  out := by
    intro n' v hv
    simp only [System.holding, System.after] at hv ⊢
    split at hv
    · exact hw v hv
    · next hne => exact hothers n' hne v hv
  apart := by
    intro n'
    simp only [System.holding, System.after]
    split
    · exact hn
    · exact h.apart n'
  between := by
    intro n₁ n₂ x h₁ h₂
    simp only [System.holding, System.after] at h₁ h₂
    split at h₁
    · next he₁ =>
      split at h₂
      · next he₂ => rw [he₁, he₂]
      · rcases hx x h₁ with hx | hx
        · rw [he₁]
          exact h.between n n₂ x hx h₂
        · exact absurd h₂ (hx n₂)
    · split at h₂
      · next he₂ =>
        rcases hx x h₂ with hx | hx
        · rw [he₂]
          exact h.between n₁ n x h₁ hx
        · exact absurd h₁ (hx n₁)
      · exact h.between n₁ n₂ x h₁ h₂

omit [Number.Arithmetic ν] in
/-- A promoter holds a delivery that nobody held before. -/
theorem Accounted.hold {n : Nat} {wait : Span} {es : Exchanges ν} {w : Held} {p : Port}
    (h : Accounted q s) (run : (Promotion.hold (s.held n) d).Ends es w)
    (served : Serving q.topics.delayed q.promoters (s.port (.promoter n))
      (⟨.receive wait, .delivery d⟩ :: es) p) :
    Accounted q ((s.after (.promoter n) p es).holding n w) := by
  obtain ⟨b, i, c', hbal, out, hmsg, hs, keep⟩ :=
    h.balanced.receive .delayed rfl rfl served
  obtain ⟨htr, -, due, rfl, -⟩ := hold_ends run
  have hs' := serving_transport hs
  rw [htr] at hs'
  obtain ⟨hb, -⟩ := serving_nil_iff.mp hs'
  have nobody (n' : Nat) : d.position ∉ heldPositions (s.held n') := by
    intro hmem
    obtain ⟨v, hv, hpos⟩ := List.mem_map.mp hmem
    obtain ⟨j, hj⟩ := h.out n' v hv
    have hne := (keep .delayed v.item j hj).2 rfl
    rw [out.position, hj.position] at hpos
    exact hne (State.position_injective hpos).symm
  have stay (n' : Nat) (v : Waiting Delivery) (hv : v ∈ (s.held n').waiting) :
      ∃ i, Out q p.broker .delayed v.item i := by
    obtain ⟨j, hj⟩ := h.out n' v hv
    rw [hb]
    exact ⟨j, (keep .delayed v.item j hj).1⟩
  have hperm := heldPositions_push (s.held n) due d
  refine h.rehold (by rw [hb]; exact hbal) ?_ ?_ ?_ fun n' _ => stay n'
  · intro v hv
    rcases DelayQueue.mem_push.mp hv with rfl | hv
    · rw [hb]
      exact ⟨i, out⟩
    · exact stay n v hv
  · exact hperm.nodup_iff.mpr (List.nodup_cons.mpr ⟨nobody n, h.apart n⟩)
  · intro x hx
    rcases List.mem_cons.mp (hperm.mem_iff.mp hx) with rfl | hx
    · exact Or.inr nobody
    · exact Or.inl hx

omit [Number.Arithmetic ν] in
/-- **What promoting does**: all stays accounted for, what was promoted is published, and the rest
of the batch is still out. -/
theorem Accounted.promote {n : Nat} {c : Promotion.Config} {now : Instant} {es : Exchanges ν}
    {r : Except TransportError Unit} {w : Held} {p : Port} (h : Accounted q s) (hf : p.broker.Fits)
    (topics : c.topics = q.topics)
    (run : (promoteDue c (s.held n)).Ends (⟨.now, now⟩ :: es) (r, w))
    (served : Serving q.topics.delayed q.promoters (s.port (.promoter n)) (⟨.now, now⟩ :: es) p) :
    Accounted q ((s.after (.promoter n) p
      ((⟨.now, now⟩ : Exchange (Answer ν)) :: es)).holding n w) ∧
    ∃ done rest, (s.held n).takeDue now = done ++ rest ∧
      p.broker.messages q.topics.active =
        s.broker.messages q.topics.active ++ done.map (fun d => promotedCopy d.message now) ∧
      (∀ d ∈ rest, ∃ i, Out q p.broker .delayed d i) ∧ (r = .ok () ↔ rest = []) := by
  obtain ⟨now', es', hes, rfl, hp⟩ := promoteDue_ends run
  obtain ⟨he, rfl⟩ := List.cons.inj hes
  obtain rfl : now = now' := by injection he
  have hs := serving_transport served
  rw [show Exchanges.transport ((⟨.now, now⟩ : Exchange (Answer ν)) :: es) = es from
    hp.transport.1] at hs
  rw [topics] at hp
  have hsplit := heldPositions_split (s.held n) now
  have hnodup := h.apart n
  rw [hsplit] at hnodup
  obtain ⟨hn₁, hn₂, hdisj⟩ := List.nodup_append.mp hnodup
  have hmem {v} (hv : v ∈ ((s.held n).dropDue now).waiting) : v ∈ (s.held n).waiting :=
    (List.dropWhile_sublist _).mem hv
  obtain ⟨hbal, keep, hdone⟩ := h.balanced.promote hp hf hs (fun d hd => by
    obtain ⟨v, hv, rfl, -⟩ := DelayQueue.le_of_mem_takeDue hd
    exact h.out n v hv) hn₁
  have stay (n' : Nat) (v : Waiting Delivery) (hv : v ∈ (s.held n').waiting)
      (hne : v.item.position ∉ ((s.held n).takeDue now).map Delivery.position) :
      ∃ i, Out q p.broker .delayed v.item i := by
    obtain ⟨i, hi⟩ := h.out n' v hv
    exact ⟨i, keep .delayed v.item i hi hne⟩
  refine ⟨h.rehold hbal ?_ hn₂ ?_ ?_, hdone⟩
  · intro v hv
    refine stay n v (hmem hv) fun hin => ?_
    exact hdisj _ hin _ (List.mem_map.mpr ⟨v, hv, rfl⟩) rfl
  · intro x hx
    refine Or.inl ?_
    rw [hsplit]
    exact List.mem_append_right _ hx
  · intro n' hne v hv
    refine stay n' v hv fun hin => hne ?_
    refine h.between n' n v.item.position (List.mem_map.mpr ⟨v, hv, rfl⟩) ?_
    rw [hsplit]
    exact List.mem_append_left _ hin

/-- **Every step keeps all accounted for.** -/
theorem Step.accounted (hs : Step ν q s e s') (hf : s'.broker.Fits) (h : Accounted q s) :
    Accounted q s' := by
  cases hs with
  | enqueued run served new => exact h.post (Client.enqueue_ends run) served new
  | enqueuedDelayed run served new => exact h.post (Client.enqueueDelayed_ends run) served new
  | worked topics group run served new =>
    obtain ⟨b, i, id, hbal, out, hid, -, keep, heff⟩ := h.work hf topics run served
    obtain ⟨hbal', keep'⟩ := hbal.effect out hid heff
    refine h.keep hbal' (fun id hid => List.mem_append_right _ (h.issued id hid)) rfl ?_
    intro d' j hd'
    exact keep' .delayed d' j (keep d' j hd') nofun
  | held run served => exact h.hold run served
  | promoted topics run served => exact (h.promote hf topics run served).1
  | @idled a topic group ex p idle served =>
    obtain ⟨c, p₁, -, hex, hnil⟩ := serving_cons_iff.mp served
    obtain ⟨hb, -⟩ := serving_nil_iff.mp hnil
    have hsub : p.broker = s.broker ∨ ∃ t g, p.broker = s.broker.subscribe t g := by
      rw [hb]
      rcases idle with ⟨t, g, x, rfl⟩ | ⟨wait, x, rfl, hx⟩
      · cases hex with
        | subscribed => exact Or.inr ⟨t, g, rfl⟩
        | subscribeRefused => exact Or.inl rfl
        | elsewhere => exact Or.inl rfl
      · cases hex with
        | cancelled => exact Or.inl rfl
        | receiveRefused => exact Or.inl rfl
        | nothing _ hr => exact Or.inr ⟨topic, group, State.receive_nothing hr⟩
        | delivered => exact absurd rfl (hx _)
        | elsewhere => exact Or.inl rfl
    have hiss : ∀ id ∈ s.accepted, id ∈ Exchanges.newIds [ex] ++ s.issued :=
      fun id hid => List.mem_append_right _ (h.issued id hid)
    rcases hsub with hsub | ⟨t, g, hsub⟩
    · refine h.keep ?_ hiss rfl fun d j hd => ?_
      · simp only [System.after, hsub]
        exact h.balanced
      · simp only [System.after, hsub]
        exact hd
    · refine h.keep ?_ hiss rfl fun d j hd => ?_
      · simp only [System.after, hsub]
        exact h.balanced.subscribe t g
      · simp only [System.after, hsub]
        exact hd.of_grows (State.grows_subscribe _ t g)
          fun g' _ => State.groupOf_subscribe _ t g _ g'
  | shut => exact ⟨h.balanced, h.issued, h.out, h.apart, h.between⟩

/-- **All is accounted for in every run.** -/
theorem Reachable.accounted (h : Reachable ν q s) (hf : s.broker.Fits) : Accounted q s := by
  induction h with
  | start => exact start_accounted q
  | step _ hs ih => exact hs.accounted hf (ih (hs.grows.fits hf))

/-- A worker's step that fails leaves its task pending, and publishes nothing. -/
theorem Accounted.pending_of_worked {f : Worker.Failure} (h : Accounted q s)
    (hs : Step ν q s (.worked d (.error f)) s') (hf : s'.broker.Fits) :
    (∃ i, Out q s'.broker .active d i) ∧ ∀ t, s'.broker.messages t = s.broker.messages t := by
  cases hs with
  | @worked n c draw token wait _ es _ p topics group run served new =>
    obtain ⟨b, i, id, -, out, -, hmsg, -, heff⟩ := h.work hf topics run served
    simp only [System.after]
    generalize p.broker = b' at heff
    generalize Worker.resolvedBy c d es = tasks at heff
    cases heff with
    | failed => exact ⟨⟨i, out⟩, hmsg⟩

/-- A promoter's step leaves pending what it did not publish. -/
theorem Accounted.pending_of_promoted {n : Nat} {now : Instant} {r : Except TransportError Unit}
    (h : Accounted q s) (hs : Step ν q s (.promoted n now r) s') (hf : s'.broker.Fits) :
    ∃ done rest, (s.held n).takeDue now = done ++ rest ∧
      s'.broker.messages q.topics.active =
        s.broker.messages q.topics.active ++ done.map (fun d => promotedCopy d.message now) ∧
      (∀ d ∈ rest, ∃ i, Out q s'.broker .delayed d i) ∧ (r = .ok () ↔ rest = []) := by
  cases hs with
  | promoted topics run served => exact (h.promote hf topics run served).2

/-- **No task is lost or duplicated.** In every state that steps lead to, in any order, every
accepted task is at exactly one place. A worker's step that fails leaves its delivery pending and
publishes nothing; a promoter's step publishes the due deliveries up to where it fails, and leaves
the rest of them pending. -/
theorem every_task_at_one_place (h : Reachable ν q s) (hf : s.broker.Fits) :
    (∀ id ∈ s.accepted, ∃! p, LiesAt q s.toBooks id p) ∧
    (∀ d f s', Step ν q s (.worked d (.error f)) s' → s'.broker.Fits →
      (∃ i, Out q s'.broker .active d i) ∧ ∀ t, s'.broker.messages t = s.broker.messages t) ∧
    (∀ n now r s', Step ν q s (.promoted n now r) s' → s'.broker.Fits →
      ∃ done rest, (s.held n).takeDue now = done ++ rest ∧
        s'.broker.messages q.topics.active =
          s.broker.messages q.topics.active ++ done.map (fun d => promotedCopy d.message now) ∧
        (∀ d ∈ rest, ∃ i, Out q s'.broker .delayed d i) ∧ (r = .ok () ↔ rest = [])) := by
  have hacc := h.accounted hf
  refine ⟨hacc.balanced.once, ?_, ?_⟩
  · intro d f s' hs hf'
    exact hacc.pending_of_worked hs hf'
  · intro n now r s' hs hf'
    exact hacc.pending_of_promoted hs hf'

/-- A promoter holds two tasks: one that was put on the queue for later, and one that has failed and
waits for its next run. -/
structure BothWait (q : Setup) (s : System) (now : Instant) (d d' : Delivery) : Prop where
  reachable : Reachable Rat q s
  accepted : s.accepted = ["b", "a"]
  resolved : s.resolved = []
  isOpen : s.closed = fun _ => false
  due : (s.held 0).takeDue now = [d, d']
  position : d.position = State.position q.topics.delayed 0
  named : d.message.header? Header.correlationId = some "b"
  read : Payload.ofWire d.message.payload = .ok ∅
  active : ∃ m, s.broker.messages q.topics.active = [m]
  next : s.broker.NextAt q.topics.active q.workers 1
  short : ∀ t, (s.broker.messages t).length ≤ 3

/-- A client, a worker and a promoter bring that about. -/
theorem exists_bothWait (q : Setup) : ∃ s now d d', BothWait q s now d d' := by
  let m (id : String) : Message :=
    (⟨"t", Payload.toWire ∅, ∅⟩ : Message).setHeader Header.correlationId id
  have named (id : String) : Client.taskMessage? "t" ∅ id = some (m id) := rfl
  have failed : (HandlerEnd.failed ["busy"]).error? = some "busy" := rfl
  obtain ⟨due, hdue, hdue'⟩ : ∃ due, Worker.dueAfter .epoch (.ofSeconds 1) = some due ∧
    Instant.epoch.addSpan? (.ofSeconds 1) = some due := ⟨_, rfl, rfl⟩
  -- a client puts one task on the queue, and one for later
  let prompt : Message := (m "a").setHeader Header.enqueuedAt Instant.epoch.renderMillis
  let later : Message := Client.delayedMessage (m "b") "t" .epoch due
  let b₁ := (∅ : State).publish q.topics.active prompt
  let b₂ := b₁.publish q.topics.delayed later
  have reach₁ : Reachable Rat q ⟨⟨b₁, ["a"], []⟩, fun _ => false, fun _ => ∅, ["a"]⟩ :=
    Reachable.start.step (.of_named (n := 0) rfl List.not_mem_nil (named "a") .epoch)
  let s₂ : System := ⟨⟨b₂, ["b", "a"], []⟩, fun _ => false, fun _ => ∅, ["b", "a"]⟩
  have reach₂ : Reachable Rat q s₂ := reach₁.step (.of_named_delayed (n := 0) rfl
    (fun h => absurd (List.mem_singleton.mp h) (by decide)) (named "b") rfl hdue')
  have active₂ : b₂.messages q.topics.active = [prompt] := by
    rw [State.messages_publish_of_ne q.delayed_ne_active.symm, State.messages_publish_self]
    rfl
  have delayed₂ : b₂.messages q.topics.delayed = [later] := by
    rw [State.messages_publish_self, State.messages_publish_of_ne q.delayed_ne_active]
    rfl
  have next₂ (t g : String) : b₂.NextAt t g 0 := (State.nextAt_empty t g).publish.publish
  -- a worker runs the first one, which fails
  obtain ⟨b₃, copy, step₃, tells, logs₃, next₃, others₃⟩ := Step.exists_retried (n := 0) (s := s₂)
    (m := prompt) rfl (next₂ _ _) (congrArg (·[0]?) active₂) (Nat.zero_le _) rfl rfl failed rfl
    (Worker.twoRuns_backoff id) hdue
  have delayed₃ : b₃.messages q.topics.delayed = [later, copy] := by
    rw [logs₃, State.messages_publish_self, delayed₂]
    rfl
  -- a promoter holds both
  let d : Delivery := ⟨State.position q.topics.delayed 0, later, 1⟩
  let d' : Delivery := ⟨State.position q.topics.delayed 1, copy, 1⟩
  obtain ⟨b₄, step₄, next₄, logs₄, others₄⟩ := Step.exists_held (ν := Rat) (n := 0)
    (s := { s₂ with broker := b₃ }) rfl (others₃ _ _ (next₂ _ _)) (congrArg (·[0]?) delayed₃)
    (dueTime?_delayedMessage (m "b") "t" .epoch due)
  obtain ⟨b₅, step₅, -, logs₅, others₅⟩ := Step.exists_held (ν := Rat) (n := 0) (m := copy)
    (s := { s₂ with broker := b₄ }.holding 0 ((s₂.held 0).push (told due) d)) rfl next₄
    (congrArg (·[1]?) ((logs₄ _).trans delayed₃)) tells
  have logs (t : String) : b₅.messages t = (b₂.publish q.topics.delayed copy).messages t :=
    ((logs₅ t).trans (logs₄ t)).trans (logs₃ t)
  have bears := (Client.bears_taskMessage (named "b")).delayed .epoch due
  refine ⟨_, told due, d, d', ((reach₂.step step₃).step step₄).step step₅, rfl, rfl, rfl, ?_, rfl,
    bears.id, congrArg Payload.ofWire bears.payload, ⟨prompt, ?_⟩,
    others₅ _ _ (others₄ _ _ next₃), fun t => ?_⟩
  · refine DelayQueue.takeDue_push (q := (∅ : Held).push (told due) d) fun w hw => ?_
    rw [show w = ⟨told due, d⟩ from List.mem_singleton.mp hw]
    exact Instant.le_refl _
  · exact ((logs _).trans (State.messages_publish_of_ne q.delayed_ne_active.symm)).trans active₂
  · change (b₅.messages t).length ≤ 3
    rw [logs]
    have h₁ : (b₁.messages t).length ≤ 1 := State.length_publish_le ∅ q.topics.active prompt t
    have h₂ : (b₂.messages t).length ≤ _ := State.length_publish_le b₁ q.topics.delayed later t
    have h₃ := State.length_publish_le b₂ q.topics.delayed copy t
    omega

/-- The handle of the promoter is closed after the first of the two, and then that of a worker. -/
theorem BothWait.stopped {s : System} {now : Instant} (h : BothWait q s now d d') :
    ∃ s' s'', Step Rat q s (.promoted 0 now (.error .closed)) s' ∧
      Step Rat q s' (.shut (.worker 0)) s'' ∧ s''.closed (.worker 1) = false ∧
      s''.accepted = s.accepted ∧ s''.resolved = s.resolved ∧
      s''.broker.NextAt q.topics.active q.workers 1 ∧
      ∀ t, s''.broker.messages t =
        (s.broker.publish q.topics.active (promotedCopy d.message now)).messages t := by
  let m := promotedCopy d.message now
  let b := (s.broker.publish q.topics.active m).changeGroup q.topics.delayed q.promoters
    (·.settle 0)
  have promoted : Promoted q.topics.active now ((s.held 0).takeDue now)
      ([⟨.publish q.topics.active m, .ok ()⟩, ⟨.ack d, .ok ()⟩,
        ⟨.publish q.topics.active (promotedCopy d'.message now), .error .closed⟩] : Exchanges Rat)
      (.error .closed) := by
    rw [h.due]
    exact .cons d (.refused d' [] .closed)
  have acked := State.ack_position (s.broker.publish q.topics.active m) q.topics.delayed
    q.promoters (Nat.zero_le Text.maxNat64)
  rw [← h.position] at acked
  have step : Step Rat q s (.promoted 0 now (.error .closed))
      ((s.after (.promoter 0) ⟨b, true⟩ ([] : Exchanges Rat)).holding 0
        ((s.held 0).dropDue now)) := by
    refine .of_promoted promoted ?_
    rw [System.port, h.isOpen]
    exact .cons (.published _ _ _) (.cons (.acked false acked)
      (.shut (.cons (.publishRefused _ _ _) (.nil _))))
  refine ⟨_, _, step, .shut _ (.worker 0), congrFun h.isOpen _, rfl, rfl, ?_, fun t => ?_⟩
  · exact h.next.publish.settle
  · exact State.messages_changeGroup _ _ _ _ t

/-- A promoter holds two tasks, and its handle is closed while it promotes them: one is ready and
the other still pending. A worker is stopped, and another one takes the task that is ready. When
that one's handle is closed before it can give the task up, the task stays pending; when the task is
finished, each of the two is at one place. -/
theorem two_tasks_at_one_place :
    ∃ (q : Setup) (s₁ s₂ s₃ s₄ s₅ : System) (d₁ d₂ d : Delivery) (now : Instant),
      Reachable Rat q s₁ ∧ (s₁.held 0).takeDue now = [d₁, d₂] ∧
      Step Rat q s₁ (.promoted 0 now (.error .closed)) s₂ ∧ (∃ i, Out q s₂.broker .delayed d₂ i) ∧
      Step Rat q s₂ (.shut (.worker 0)) s₃ ∧
      Step Rat q s₃ (.worked d (.error (.transport .closed))) s₄ ∧
      (∃ i, Out q s₄.broker .active d i) ∧
      Step Rat q s₃ (.worked d (.ok .succeeded)) s₅ ∧ s₅.accepted = ["b", "a"] ∧
      s₅.resolved = ["b"] ∧ ∀ id ∈ s₅.accepted, ∃! p, LiesAt q s₅.toBooks id p := by
  let q : Setup := ⟨"q", "workers", "promoters"⟩
  obtain ⟨s₁, now, d₁, d₂, h⟩ := exists_bothWait q
  obtain ⟨s₂, s₃, step₂, step₃, open₃, accepted₃, resolved₃, next₃, logs₃⟩ := h.stopped
  have reach₃ := (h.reachable.step step₂).step step₃
  -- another worker takes the task that is ready
  let m := promotedCopy d₁.message now
  obtain ⟨first, active⟩ := h.active
  let d : Delivery := ⟨State.position q.topics.active 1, m, 1⟩
  have there : (s₃.broker.messages q.topics.active)[1]? = some m := by
    rw [logs₃, State.messages_publish_self, active]
    rfl
  have named : m.header? Header.correlationId = some "b" :=
    (header?_promotedCopy (by decide)).trans h.named
  have read : Payload.ofWire m.payload = .ok ∅ := by
    rw [payload_promotedCopy]
    exact h.read
  -- its handler fails, and the handle is closed before the dead letter is published
  let p : Retry.Policy Rat := { Worker.twoRuns with maxRetries := 1 }
  have last : p.retries ((Worker.priorFailures p m).toNat + 1) "busy" = false := by
    have hprior : (Worker.priorFailures p m).toNat < 1 := Worker.priorFailures_lt p m
    rw [Nat.lt_one_iff.mp hprior]
    rfl
  have failed : (HandlerEnd.failed ["busy"]).error? = some "busy" := rfl
  obtain ⟨s₄, step₄, logs₄⟩ := Step.exists_shutOut id open₃ next₃ there named read failed last
  -- or its handler succeeds
  obtain ⟨b₅, step₅, logs₅⟩ :=
    Step.exists_finished p id open₃ next₃ there (by decide) named read
  have fits₃ : s₃.broker.Fits := by
    intro t
    have h₁ := h.short t
    have h₂ := State.length_publish_le s₁.broker q.topics.active m t
    rw [logs₃]
    exact Nat.le_trans (Nat.le_trans h₂ (Nat.succ_le_succ h₁)) (by decide)
  have fits₂ := step₃.grows.fits fits₃
  have fits₁ := step₂.grows.fits fits₂
  have fits₄ : s₄.broker.Fits := fun t => logs₄ t ▸ fits₃ t
  have fits₅ : b₅.Fits := fun t => logs₅ t ▸ fits₃ t
  obtain ⟨done, rest, split, -, out, stopped⟩ :=
    (every_task_at_one_place h.reachable fits₁).2.2 0 now _ s₂ step₂ fits₂
  -- the batch was not finished, so that its last delivery is left
  have left : d₂ ∈ rest := by
    have hne : rest ≠ [] := fun he => nomatch stopped.mpr he
    rw [h.due] at split
    have hlast := congrArg List.getLast? split
    rw [List.getLast?_append_of_ne_nil _ hne] at hlast
    exact List.mem_of_getLast? hlast.symm
  have pending := (every_task_at_one_place reach₃ fits₃).2.1 d _ _ step₄ fits₄
  have once := (every_task_at_one_place (reach₃.step step₅) fits₅).1
  refine ⟨q, s₁, s₂, s₃, _, _, d₁, d₂, d, now, h.reachable, h.due, step₂, out d₂ left, step₃, step₄,
    pending.1, step₅, accepted₃.trans h.accepted, ?_, once⟩
  exact congrArg (· ++ ["b"]) (resolved₃.trans h.resolved)

end TaskQueue.Ledger
