import TaskQueue.Proofs.Redis.Exchange

/-!
# Entries are only acknowledged when nothing is lost by it

A consumer is asked to receive, to acknowledge and to hand back, in any order, and whatever a server
replies. An entry that is acknowledged is gone for the group. So a consumer acknowledges it when it
was told to, when nothing is left of it, or when a copy or a report of it was just added; and if
that was refused, the call fails and does nothing more.

Results:

* `call_ends`: what a consumer does when it is asked for something;
* `Advanced.allowed`, `Advanced.refused`: what one read acknowledges, and when it must not;
* `Called.careful`: so does every call;
* `retired_with_cause`: **every call of every history**, and what calls come to once the transport
  is closed.
-/

namespace TaskQueue.Redis

open Engine Time Script

/-! ## Calls -/

/-- What is asked of a consumer. -/
inductive Call where
  /-- A delivery is waited for, over at most so many reads. -/
  | receive (wait : Span) (reads : Nat)
  | ack (d : Delivery)
  | reject (d : Delivery) (requeue : Bool)

namespace Consumer

/-- What has no result receives nothing. -/
def nothing (r : Result Unit) : Receipt := r.map fun _ => none

/-- Does what is asked for. -/
def call (c : Consumer) : Call → Program Progress
  | .receive wait reads => c.receive wait reads
  | .ack d => do return (c, some (nothing (← c.ack d)))
  | .reject d requeue => do return (c, some (nothing (← c.reject d requeue)))

/-- The courses that a call may take. -/
inductive Called (c : Consumer) : Call → Exchanges → Progress → Prop where
  | closed (k : Call) : Called c k [⟨.isOpen, false⟩] (c, some (.error .closed))
  | received {wait : Span} {reads : Nat} {es : Exchanges} {p : Progress}
      (h : Reading wait reads c es p) : Called c (.receive wait reads) (⟨.isOpen, true⟩ :: es) p
  | acked (d : Delivery) (x : Reply) :
      Called c (.ack d) [⟨.isOpen, true⟩, c.retiring d.position.offset x]
        (c, some (nothing (c.retired d.position.offset x)))
  | rejected (d : Delivery) (x : Reply) :
      Called c (.reject d false) [⟨.isOpen, true⟩, c.retiring d.position.offset x]
        (c, some (nothing (c.retired d.position.offset x)))
  | requeued (d : Delivery) {es : Exchanges} {r : Result Unit}
      (h : Moved c c.stream d.message d.position.offset es r) :
      Called c (.reject d true) (⟨.isOpen, true⟩ :: es) (c, some (nothing r))

variable {c : Consumer} {es : Exchanges} {p : Progress} {k : Call}

/-- Something is made of a result. -/
theorem map_ends {s : Program (Result Unit)} {f : Result Unit → Progress} :
    (s >>= fun r => .done (f r)).Ends es p ↔ ∃ r, s.Ends es r ∧ p = f r := by
  rw [ends_bind_iff]
  constructor
  · rintro ⟨es₁, es₂, r, rfl, h₁, h₂⟩
    obtain ⟨rfl, rfl⟩ := ends_done_iff.mp h₂
    exact ⟨r, by rwa [List.append_nil], rfl⟩
  · rintro ⟨r, h, rfl⟩
    exact ⟨es, [], r, (List.append_nil _).symm, h, .done _⟩

/-- **Every call takes one of the courses**, and may take each of them. -/
theorem call_ends : (c.call k).Ends es p ↔ Called c k es p := by
  constructor
  · intro h
    cases k with
    | receive wait reads =>
      rcases receive_ends.mp h with ⟨rfl, rfl⟩ | ⟨es', rfl, hreading⟩
      · exact .closed _
      · exact .received hreading
    | ack d =>
      obtain ⟨r, hr, rfl⟩ := map_ends.mp h
      rcases ack_ends.mp hr with ⟨rfl, rfl⟩ | ⟨es', rfl, x, rfl, rfl⟩
      · exact .closed _
      · exact .acked d x
    | reject d requeue =>
      obtain ⟨r, hr, rfl⟩ := map_ends.mp h
      rcases reject_ends.mp hr with ⟨rfl, rfl⟩ | ⟨es', rfl, hsettled⟩
      · exact .closed _
      · cases requeue with
        | true => exact .requeued d hsettled
        | false =>
          obtain ⟨x, rfl, rfl⟩ := hsettled
          exact .rejected d x
  · intro h
    cases h with
    | closed =>
      cases k with
      | receive wait reads => exact receive_ends.mpr (.inl ⟨rfl, rfl⟩)
      | ack d => exact map_ends.mpr ⟨_, ack_ends.mpr (.inl ⟨rfl, rfl⟩), rfl⟩
      | reject d requeue => exact map_ends.mpr ⟨_, reject_ends.mpr (.inl ⟨rfl, rfl⟩), rfl⟩
    | received h => exact receive_ends.mpr (.inr ⟨_, rfl, h⟩)
    | acked d x => exact map_ends.mpr ⟨_, ack_ends.mpr (.inr ⟨_, rfl, x, rfl, rfl⟩), rfl⟩
    | rejected d x => exact map_ends.mpr ⟨_, reject_ends.mpr (.inr ⟨_, rfl, x, rfl, rfl⟩), rfl⟩
    | requeued d h => exact map_ends.mpr ⟨_, reject_ends.mpr (.inr ⟨_, rfl, h⟩), rfl⟩

theorem Reading.same {wait : Span} {reads : Nat} (h : Reading wait reads c es p) :
    ∃ cursor, p.1 = { c with cursor } := by
  induction h with
  | unsettled c => exact ⟨c.cursor, rfl⟩
  | settled h => exact h.same
  | goOn h rest ih =>
    obtain ⟨cursor, rfl⟩ := h.same
    exact ih

/-- A call leaves the consumer as it was but for how far it has read. -/
theorem Called.same (h : Called c k es p) : ∃ cursor, p.1 = { c with cursor } := by
  cases h with
  | received h => exact h.same
  | closed | acked | rejected | requeued => exact ⟨c.cursor, rfl⟩

/-! ## What entitles to an acknowledgement -/

/-- The next message to be added is a copy of an entry that is handed back, or the report of one
that was just read and is no message. What was exchanged before is told apart from what was
exchanged since the entry was met. -/
inductive Carries (c : Consumer) : (id : String) → Call → (before since : Exchanges) →
    (stream : String) → Message → Prop where
  | copy (d : Delivery) :
      Carries c d.position.offset (.reject d true) [] [⟨.isOpen, true⟩] c.stream d.message
  | report {wait : Span} {reads : Nat} (before : Exchanges) {source : Source} {x : Reply}
      {e : Entry} {error : TransportError} (now : Instant)
      (found : c.found source x = .ok (some e)) (unread : e.message = .error error) :
      Carries c e.id (.receive wait reads) before [c.reading source x, ⟨.now, now⟩]
        c.deadLetters (e.report c.topic error now)

/-- **What entitles a consumer to acknowledge an entry**: what it was asked for, and what it has
exchanged since. -/
inductive Entitled (c : Consumer) : (id : String) → Call → Exchanges → Prop where
  | acked (d : Delivery) (before : Exchanges) : Entitled c d.position.offset (.ack d) before
  | rejected (d : Delivery) (before : Exchanges) :
      Entitled c d.position.offset (.reject d false) before
  /-- Nothing is left of an entry that was handed out before. -/
  | trimmed {wait : Span} {reads : Nat} (before : Exchanges) {after : String} {x : Reply}
      {e : Entry} (found : c.found (.pending after) x = .ok (some e))
      (trimmed : e.isTrimmed = true) :
      Entitled c e.id (.receive wait reads) (before ++ [c.reading (.pending after) x])
  /-- A copy or a report of it was just added. -/
  | carried {id stream : String} {k : Call} {before since : Exchanges} {m : Message} {x : Reply}
      (carries : Carries c id k before since stream m) (confirmed : x.Confirms) :
      Entitled c id k (before ++ since ++ [⟨.send (.add stream m), x⟩])

/-- An exchange is no acknowledgement, or one that the consumer is entitled to. -/
def Allowed (c : Consumer) (k : Call) (before : Exchanges) : Exchange Answer → Prop
  | ⟨.send (.ack stream group id), _⟩ =>
    stream = c.stream ∧ group = c.group ∧ Entitled c id k before
  | _ => True

variable {cursor : Option String} {id stream : String} {m : Message} {before since : Exchanges}
  {wait : Span} {reads : Nat}

/-- How far the consumer has read has no part in it. -/
theorem Carries.of_cursor (h : Carries { c with cursor } id k before since stream m) :
    Carries c id k before since stream m := by
  cases h with
  | copy d => exact .copy d
  | report before now found unread => exact .report before now found unread

theorem Entitled.of_cursor (h : Entitled { c with cursor } id k before) :
    Entitled c id k before := by
  cases h with
  | acked d => exact .acked d before
  | rejected d => exact .rejected d before
  | trimmed before found trimmed => exact .trimmed before found trimmed
  | carried carries confirmed => exact .carried carries.of_cursor confirmed

theorem Allowed.of_cursor {ex : Exchange Answer} (h : Allowed { c with cursor } k before ex) :
    Allowed c k before ex := by
  unfold Allowed at h ⊢
  split
  · exact ⟨h.1, h.2.1, h.2.2.of_cursor⟩
  · trivial

/-! ## What a read acknowledges -/

/-- **A read acknowledges only what it is entitled to.** -/
theorem Advanced.allowed (h : Advanced c wait es p) (before : Exchanges) :
    Each (Allowed c (.receive wait reads)) before es := by
  cases h with
  | failed found => exact ⟨trivial, trivial⟩
  | empty found => exact ⟨trivial, trivial⟩
  | found found meeting =>
    cases meeting with
    | delivered read => exact ⟨trivial, trivial⟩
    | dropped y drops =>
      obtain ⟨after, hsource⟩ := drops.exists_source wait
      rw [hsource] at found ⊢
      exact ⟨trivial, ⟨rfl, rfl, .trimmed before found drops.2⟩, trivial⟩
    | reported now kept unread moved =>
      refine ⟨trivial, trivial, ?_⟩
      cases moved with
      | refused refused => exact ⟨trivial, trivial⟩
      | retired y confirmed =>
        refine ⟨trivial, ⟨rfl, rfl, ?_⟩, trivial⟩
        rw [List.append_assoc before]
        exact .carried (.report before now found unread) (added_eq_ok_iff.mp confirmed)

theorem Reading.allowed {most : Nat} (h : Reading wait most c es p) (before : Exchanges) :
    Each (Allowed c (.receive wait reads)) before es := by
  induction h generalizing before with
  | unsettled c => trivial
  | settled h => exact h.allowed before
  | goOn h rest ih =>
    obtain ⟨cursor, rfl⟩ := h.same
    exact each_append.mpr ⟨h.allowed before, (ih _).imp fun _ _ => Allowed.of_cursor⟩

/-! ## What was read -/

/-- The entry that an exchange brings. -/
def brought? (c : Consumer) : Exchange Answer → Option Entry
  | ⟨.send (.read _ _ _ source), x⟩ =>
    match c.found source x with
    | .ok o => o
    | .error _ => none
  | _ => none

/-- How often an entry under an id was brought. -/
def timesBrought (c : Consumer) (id : String) (es : Exchanges) : Nat :=
  ((es.filterMap c.brought?).map Entry.id).count id

variable {es' : Exchanges} {source : Source} {x y : Reply} {e : Entry} {r : Option Receipt}
  {c' : Consumer}

theorem timesBrought_append (id : String) (es es' : Exchanges) :
    c.timesBrought id (es ++ es') = c.timesBrought id es + c.timesBrought id es' := by
  unfold timesBrought
  rw [List.filterMap_append, List.map_append, List.count_append]

theorem timesBrought_pos (h : c.reading source x ∈ es) (hf : c.found source x = .ok (some e)) :
    0 < c.timesBrought e.id es := by
  refine List.count_pos_iff.mpr (List.mem_map.mpr ⟨e, List.mem_filterMap.mpr ⟨_, h, ?_⟩, rfl⟩)
  unfold brought?
  dsimp only
  rw [hf]

/-- What is acknowledged is the entry that was read. -/
theorem Meeting.id_eq (h : Meeting c e es p) (hack : c.retiring id y ∈ es) : id = e.id := by
  cases h with
  | dropped y' drops =>
    cases List.mem_singleton.mp hack
    rfl
  | delivered read => cases hack
  | reported now kept unread moved =>
    cases moved with
    | refused refused => simp at hack
    | retired y' confirmed =>
      simp only [List.mem_cons, List.not_mem_nil, or_false] at hack
      rcases hack with hack | hack | hack
      · cases hack
      · cases hack
      · cases hack
        rfl

/-- A read acknowledges an entry that it has brought. -/
theorem Advanced.timesBrought_pos (h : Advanced c wait es p) (hack : c.retiring id y ∈ es) :
    0 < c.timesBrought id es := by
  cases h with
  | failed found => simp at hack
  | empty found => simp at hack
  | found found meeting =>
    rcases List.mem_cons.mp hack with hack | hack
    · cases hack
    · rw [meeting.id_eq hack]
      exact Consumer.timesBrought_pos List.mem_cons_self found

/-! ## What is refused -/

/-- **The message that carries an entry could not be added**: that is the last exchange, and the
call has failed. The entry was not acknowledged. -/
structure Refused (c : Consumer) (k : Call) (es₁ : Exchanges) (stream : String) (m : Message)
    (es₂ : Exchanges) (r : Option Receipt) : Prop where
  last : es₂ = []
  failed : ∃ e, r = some (.error e)
  /-- Nothing was acknowledged since the entry was met. An acknowledgement of the same id before was
  of another read that brought an entry under it. -/
  spared : ∃ id before since, es₁ = before ++ since ∧ Carries c id k before since stream m ∧
    (∀ id' y, c.retiring id' y ∉ since) ∧
    ∀ y, c.retiring id y ∈ before → 0 < c.timesBrought id before

/-- Nothing is done about a message that could not be added. -/
theorem Moved.eq_of_refused {stream' : String} {m' : Message} {es₁ es₂ : Exchanges}
    {r : Result Unit} (h : Moved c stream m id es r)
    (hes : es = es₁ ++ ⟨.send (.add stream' m'), x⟩ :: es₂) (hx : ¬ x.Confirms) :
    es₁ = [] ∧ es₂ = [] ∧ stream' = stream ∧ m' = m ∧ ∃ e, r = .error e := by
  cases h with
  | @refused z e refused =>
    obtain ⟨rfl, hlast⟩ | ⟨-, hnil⟩ := List.append_eq_singleton_iff.mp hes.symm
    · obtain ⟨hxz, rfl⟩ := List.cons.inj hlast
      cases hxz
      exact ⟨rfl, rfl, rfl, rfl, e, rfl⟩
    · cases hnil
  | @retired z y confirmed =>
    cases es₁ with
    | nil =>
      obtain ⟨hxz, -⟩ := List.cons.inj hes
      cases hxz
      exact absurd (added_eq_ok_iff.mp confirmed) hx
    | cons ex es₁ =>
      have hlater : ⟨.send (.add stream' m'), x⟩ ∈ [c.retiring id y] := by
        rw [(List.cons.inj hes).2]
        exact List.mem_append_right _ List.mem_cons_self
      simp at hlater

/-- **A read in which a message could not be added** has failed, and did nothing more. -/
theorem Advanced.refused {es₁ es₂ : Exchanges} (h : Advanced c wait es (c', r))
    (hes : es = es₁ ++ ⟨.send (.add stream m), x⟩ :: es₂) (hx : ¬ x.Confirms) :
    Refused c (.receive wait reads) es₁ stream m es₂ r := by
  have hadd : ⟨.send (.add stream m), x⟩ ∈ es := by
    rw [hes]
    exact List.mem_append_right _ List.mem_cons_self
  cases h with
  | failed found => simp at hadd
  | empty found => simp at hadd
  | found found meeting =>
    cases meeting with
    | delivered read => simp at hadd
    | dropped y drops => simp at hadd
    | @reported error now es r kept unread moved =>
      -- it stands after the read and the time
      obtain ⟨rest, rfl, hrest⟩ := exists_append_of_not_mem
        (show _ ∉ [c.reading (c.source wait) _, ⟨.now, now⟩] by simp) hes
      obtain ⟨rfl, rfl, rfl, rfl, error', rfl⟩ := moved.eq_of_refused hrest hx
      exact ⟨rfl, ⟨error', rfl⟩, _, [], _, List.append_nil _, .report [] now found unread,
        by simp, nofun⟩

theorem Refused.of_cursor {es₁ es₂ : Exchanges}
    (h : Refused { c with cursor } k es₁ stream m es₂ r) : Refused c k es₁ stream m es₂ r := by
  obtain ⟨id, before, since, hes, carries, hspared⟩ := h.spared
  exact ⟨h.last, h.failed, id, before, since, hes, carries.of_cursor, hspared⟩

/-- What was done before does not matter, if only what was brought then was acknowledged. -/
theorem Refused.prepend {front es₁ es₂ : Exchanges}
    (h : Refused c (.receive wait reads) es₁ stream m es₂ r)
    (hfront : ∀ id y, c.retiring id y ∈ front → 0 < c.timesBrought id front) :
    Refused c (.receive wait reads) (front ++ es₁) stream m es₂ r := by
  obtain ⟨id, before, since, rfl, carries, hsince, hbefore⟩ := h.spared
  refine ⟨h.last, h.failed, id, front ++ before, since, (List.append_assoc _ _ _).symm, ?_, hsince,
    fun y hack => ?_⟩
  · cases carries with
    | report before now found unread => exact .report _ now found unread
  · rw [timesBrought_append]
    rcases List.mem_append.mp hack with hack | hack
    · exact Nat.add_pos_left (hfront id y hack) _
    · exact Nat.add_pos_right _ (hbefore y hack)

theorem Reading.refused {most : Nat} {es₁ es₂ : Exchanges} (h : Reading wait most c es p)
    (hes : es = es₁ ++ ⟨.send (.add stream m), x⟩ :: es₂) (hx : ¬ x.Confirms) :
    Refused c (.receive wait reads) es₁ stream m es₂ p.2 := by
  induction h generalizing es₁ with
  | unsettled c => simp at hes
  | settled h => exact h.refused hes hx
  | @goOn c c' es es' p most h rest ih =>
    -- no read but the last has failed
    have hadd : ⟨.send (.add stream m), x⟩ ∉ es := by
      intro hadd
      obtain ⟨es₁, es₂, hes⟩ := List.append_of_mem hadd
      have hrefused : Refused c (.receive wait reads) _ _ _ _ _ := h.refused hes hx
      obtain ⟨e, he⟩ := hrefused.failed
      cases he
    obtain ⟨es₃, rfl, hrest⟩ := exists_append_of_not_mem hadd hes
    obtain ⟨cursor, rfl⟩ := h.same
    exact (ih hrest).of_cursor.prepend fun _ _ => h.timesBrought_pos

end Consumer

/-! ## Histories -/

/-- A call of a consumer: what is asked for, what is exchanged over it, and what it comes to. -/
structure Turn where
  call : Call
  exchanges : Exchanges
  receipt : Option Consumer.Receipt

/-- **A call acknowledges entries with cause only**, and when the copy or the report of an entry is
refused, it fails without acknowledging the entry. -/
structure Turn.Careful (c : Consumer) (t : Turn) : Prop where
  /-- An acknowledgement is one of the consumer's group, and it is entitled to it. -/
  entitled : ∀ es₁ stream group id y es₂,
    t.exchanges = es₁ ++ ⟨.send (.ack stream group id), y⟩ :: es₂ →
      stream = c.stream ∧ group = c.group ∧ c.Entitled id t.call es₁
  refused : ∀ es₁ stream m x es₂, t.exchanges = es₁ ++ ⟨.send (.add stream m), x⟩ :: es₂ →
    ¬ x.Confirms → c.Refused t.call es₁ stream m es₂ t.receipt

namespace Consumer

variable {c c' : Consumer} {k : Call} {es : Exchanges} {r : Option Receipt}

theorem Called.allowed (h : Called c k es (c', r)) : Each (Allowed c k) [] es := by
  cases h with
  | closed => exact ⟨trivial, trivial⟩
  | received h => exact ⟨trivial, h.allowed _⟩
  | acked d x => exact ⟨trivial, ⟨rfl, rfl, .acked d _⟩, trivial⟩
  | rejected d x => exact ⟨trivial, ⟨rfl, rfl, .rejected d _⟩, trivial⟩
  | requeued d h =>
    cases h with
    | refused refused => exact ⟨trivial, trivial, trivial⟩
    | retired y confirmed =>
      refine ⟨trivial, trivial, ⟨rfl, rfl, ?_⟩, trivial⟩
      exact Entitled.carried (.copy d) (added_eq_ok_iff.mp confirmed)

theorem Called.refused {es₁ es₂ : Exchanges} {stream : String} {m : Message} {x : Reply}
    (h : Called c k es (c', r)) (hes : es = es₁ ++ ⟨.send (.add stream m), x⟩ :: es₂)
    (hx : ¬ x.Confirms) : Refused c k es₁ stream m es₂ r := by
  have hadd : ⟨.send (.add stream m), x⟩ ∈ es := by
    rw [hes]
    exact List.mem_append_right _ List.mem_cons_self
  cases h with
  | closed => simp at hadd
  | acked d y => simp at hadd
  | rejected d y => simp at hadd
  | received h =>
    obtain ⟨rest, rfl, hrest⟩ := exists_append_of_not_mem (show _ ∉ [_] by simp) hes
    exact (h.refused hrest hx).prepend fun _ _ hack => by simp at hack
  | requeued d h =>
    obtain ⟨rest, rfl, hrest⟩ := exists_append_of_not_mem (show _ ∉ [_] by simp) hes
    obtain ⟨rfl, rfl, rfl, rfl, error, rfl⟩ := h.eq_of_refused hrest hx
    exact ⟨rfl, ⟨error, rfl⟩, d.position.offset, [], _, List.append_nil _, .copy d, by simp, nofun⟩

/-- **Every call is careful**, whatever is replied. -/
theorem Called.careful (h : Called c k es (c', r)) : Turn.Careful c ⟨k, es, r⟩ where
  entitled es₁ stream group id y es₂ hes := by
    have hallowed := h.allowed
    rw [show es = _ from hes] at hallowed
    exact hallowed.at
  refused es₁ stream m x es₂ hes hx := h.refused hes hx

end Consumer

/-- What happens to a consumer: its transport is closed, or it is called. -/
inductive Event where
  | closed
  | called (t : Turn)

/-- What may happen to a consumer, whose transport is open or not. Nothing is said of what a server
replies. -/
inductive Happens : (isOpen : Bool) → Consumer → List Event → Prop where
  | nil (isOpen : Bool) (c : Consumer) : Happens isOpen c []
  | closed {isOpen : Bool} {c : Consumer} {events : List Event} (later : Happens false c events) :
      Happens isOpen c (.closed :: events)
  | called {isOpen : Bool} {c c' : Consumer} {t : Turn} {events : List Event}
      (ends : (c.call t.call).Ends t.exchanges (c', t.receipt))
      (told : ∀ b, ⟨.isOpen, b⟩ ∈ t.exchanges → b = isOpen) (later : Happens isOpen c' events) :
      Happens isOpen c (.called t :: events)

theorem Turn.Careful.of_cursor {c : Consumer} {cursor : Option String} {t : Turn}
    (h : t.Careful { c with cursor }) : t.Careful c where
  entitled es₁ stream group id y es₂ hes := by
    obtain ⟨hstream, hgroup, hentitled⟩ := h.entitled es₁ stream group id y es₂ hes
    exact ⟨hstream, hgroup, hentitled.of_cursor⟩
  refused es₁ stream m x es₂ hes hx := (h.refused es₁ stream m x es₂ hes hx).of_cursor

/-- Once the transport is closed, a call says so and does nothing else. -/
theorem Consumer.Called.closed_of {c c' : Consumer} {k : Call} {es : Exchanges}
    {r : Option Consumer.Receipt} (h : Called c k es (c', r))
    (told : ∀ b, ⟨.isOpen, b⟩ ∈ es → b = false) :
    es = [⟨.isOpen, false⟩] ∧ r = some (.error .closed) := by
  cases h with
  | closed => exact ⟨rfl, rfl⟩
  | received | acked | rejected | requeued => cases told true List.mem_cons_self

/-- **Entries are acknowledged with cause only**, in every call of every history. Every call that is
made after the transport was closed says so, and sends nothing. -/
theorem retired_with_cause {isOpen : Bool} {c : Consumer} {events : List Event}
    (h : Happens isOpen c events) {before after : List Event} {t : Turn}
    (ht : events = before ++ .called t :: after) :
    t.Careful c ∧ (isOpen = false ∨ .closed ∈ before →
      t.exchanges = [⟨.isOpen, false⟩] ∧ t.receipt = some (.error .closed)) := by
  induction h generalizing before with
  | nil isOpen c => simp at ht
  | @closed isOpen c events later ih =>
    cases before with
    | nil => cases ht
    | cons event before =>
      obtain ⟨hcareful, hclosed⟩ := ih (List.cons.inj ht).2
      exact ⟨hcareful, fun _ => hclosed (.inl rfl)⟩
  | @called isOpen c c' t' events ends told later ih =>
    have hcalled := Consumer.call_ends.mp ends
    cases before with
    | nil =>
      obtain ⟨htt, -⟩ := List.cons.inj ht
      cases htt
      refine ⟨hcalled.careful, fun hclosed => hcalled.closed_of fun b hb => ?_⟩
      rw [told b hb]
      exact hclosed.resolve_right List.not_mem_nil
    | cons event before =>
      obtain ⟨hevent, hrest⟩ := List.cons.inj ht
      obtain ⟨cursor, hcursor⟩ := hcalled.same
      obtain rfl : c' = { c with cursor } := hcursor
      obtain ⟨hcareful, hclosed⟩ := ih hrest
      refine ⟨hcareful.of_cursor, fun hearlier => hclosed (hearlier.imp_right fun hmem => ?_)⟩
      exact (List.mem_cons.mp hmem).resolve_left (by rw [← hevent]; nofun)

/-! ## A full server -/

/-- A consumer that has just joined its group. -/
def newcomer : Consumer := ⟨⟨"redis://localhost", "jobs", "w-1"⟩, "tasks", "workers", some "0"⟩

/-- An entry that was trimmed from its stream. -/
def trimmedEntry : Entry := ⟨"1-0", ∅⟩

/-- An entry that is no message. -/
def keylessEntry : Entry := ⟨"2-0", .ofList [(payloadField, .bytes [])]⟩

/-- Why the entry is no message. -/
def noKey : TransportError := .deserialization "entry 2-0 has no key"

/-- The answer of a server that can keep nothing more. -/
def outOfMemory : ServerError := ⟨"OOM", some "command not allowed"⟩

/-- The report of the entry. -/
def keylessReport : Message := keylessEntry.report "tasks" noKey .epoch

/-- The trimmed entry is dropped, and the report of the other one is refused. -/
def failedCall : Turn where
  call := .receive .zero 2
  exchanges := [
    ⟨.isOpen, true⟩,
    newcomer.reading (.pending "0") (.ok (trimmedEntry.reply newcomer.stream)),
    newcomer.retiring "1-0" (.ok (.int 1)),
    newcomer.reading (.pending "1-0") (.ok (keylessEntry.reply newcomer.stream)),
    ⟨.now, Instant.epoch⟩,
    ⟨.send (.add newcomer.deadLetters keylessReport), (.error outOfMemory : Reply)⟩]
  receipt := some (.error (commandError (.add newcomer.deadLetters keylessReport)
    (.server outOfMemory)))

/-- A call after the transport was closed. -/
def lateCall : Turn := ⟨.receive .zero 2, [⟨.isOpen, false⟩], some (.error .closed)⟩

theorem newcomer_dropped : newcomer.Advanced .zero
    [newcomer.reading (.pending "0") (.ok (trimmedEntry.reply newcomer.stream)),
      newcomer.retiring "1-0" (.ok (.int 1))]
    (newcomer.past trimmedEntry, none) :=
  .found (newcomer.found_reply _ _ trimmedEntry) (.dropped (.ok (.int 1)) ⟨nofun, rfl⟩)

theorem not_drops_keylessEntry : ¬ (newcomer.past trimmedEntry).Drops keylessEntry :=
  fun h => nomatch h.2

theorem happens_failedCall :
    Happens true newcomer [.called failedCall, .closed, .called lateCall] := by
  have hreported : (newcomer.past trimmedEntry).Advanced .zero
      [newcomer.reading (.pending "1-0") (.ok (keylessEntry.reply newcomer.stream)),
        ⟨.now, Instant.epoch⟩,
        ⟨.send (.add newcomer.deadLetters keylessReport), (.error outOfMemory : Reply)⟩]
      ((newcomer.past trimmedEntry).past keylessEntry,
        some (.error (commandError (.add newcomer.deadLetters keylessReport)
          (.server outOfMemory)))) :=
    .found ((newcomer.past trimmedEntry).found_reply _ _ keylessEntry)
      (.reported .epoch not_drops_keylessEntry rfl (.refused rfl))
  have hcalled : newcomer.Called failedCall.call failedCall.exchanges (_, failedCall.receipt) :=
    .received (.goOn newcomer_dropped (.settled hreported))
  refine .called (Consumer.call_ends.mpr hcalled) ?_
    (.closed (.called (Consumer.call_ends.mpr (.closed _)) ?_ (.nil _ _)))
  · intro b hb
    simpa [failedCall] using hb
  · intro b hb
    simpa [lateCall] using hb

/-- The report was refused, so the call has failed; and nothing is sent after the end. -/
theorem failedCall_careful :
    Happens true newcomer [.called failedCall, .closed, .called lateCall] ∧
      failedCall.Careful newcomer ∧ lateCall.exchanges = [⟨.isOpen, false⟩] := by
  have h := happens_failedCall
  have hfirst := retired_with_cause h (List.nil_append _).symm
  have hlast := retired_with_cause h
    (rfl : _ = [Event.called failedCall, Event.closed] ++ Event.called lateCall :: [])
  exact ⟨h, hfirst.1, (hlast.2 (.inr (List.mem_cons_of_mem _ List.mem_cons_self))).1⟩

end TaskQueue.Redis
