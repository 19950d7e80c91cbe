import TaskQueue.Proofs.Broker.Calls

/-!
# How every message reaches every group

Anyone may call a broker in any order, and may resolve any position, also one that was never handed
out. Whatever they do, a group is handed the messages of a topic as new in the order in which they
were published, each once. No call of another group has a part in this.

Results:

* `messages_eq_published`: the log of a topic is what was published to it;
* `exists_taken`: whatever is handed out is the message at its index of the log;
* `newlyHandedOut_eq`: **what a group was handed as new is the beginning of the log**;
* `group?_call`: a call leaves every group as it was that it does not name;
* `isSome_receive_iff`: the backlog is the number of receives that can be answered;
* `reaches_in_order`: all of these, as `Reaches` says.
-/

namespace TaskQueue.Broker

open State

/-! ## Groups that a call does not name -/

/-- The topic and the group that a call names. Publishing names no group. -/
def Call.names? : Call → Option (String × String)
  | .publish .. => none
  | .subscribe topic group => some (topic, group)
  | .receive topic group => some (topic, group)
  | .ack topic group _ => some (topic, group)
  | .reject topic group _ _ => some (topic, group)

namespace State

variable {b : State} {c : Call} {topic group t g : String} {d : Delivery}

@[simp] theorem group?_publish (b : State) (topic : String) (m : Message) (t g : String) :
    (b.publish topic m).group? t g = b.group? t g := by
  unfold group?
  rw [topic_publish]
  split
  · next h => rw [h]; rfl
  · rfl

theorem group?_subscribe_of_ne (h : ¬ (t = topic ∧ g = group)) :
    (b.subscribe topic group).group? t g = b.group? t g := by
  unfold group?
  rw [topic_subscribe]
  split
  · next ht =>
    subst ht
    have hg : g ≠ group := fun hg => h ⟨rfl, hg⟩
    simp only [Topic.join, Dict.get?_update, if_neg hg]
  · rfl

theorem group?_receive_of_ne (h : ¬ (t = topic ∧ g = group)) :
    (b.receive topic group).2.group? t g = b.group? t g := by
  unfold receive
  dsimp only
  split
  · exact group?_subscribe_of_ne h
  · split
    · exact group?_subscribe_of_ne h
    · rw [group?_changeGroup, if_neg h]
      exact group?_subscribe_of_ne h

theorem group?_reject_of_ne (p : Position) (requeue : Bool) (h : ¬ (t = topic ∧ g = group)) :
    ((b.reject topic group p requeue).toOption.getD b).group? t g = b.group? t g := by
  unfold reject
  cases index? p with
  | error e => rfl
  | ok i =>
    show (b.changeGroup topic group _).group? t g = _
    rw [group?_changeGroup, if_neg h]

/-- **A call leaves every group as it was that it does not name.** -/
theorem group?_call (h : c.names? ≠ some (t, g)) : (b.call c).group? t g = b.group? t g := by
  have hne {topic group : String} (hn : c.names? = some (topic, group)) :
      ¬ (t = topic ∧ g = group) := by
    rintro ⟨rfl, rfl⟩
    exact h hn
  cases c with
  | publish topic m => exact group?_publish b topic m t g
  | subscribe topic group => exact group?_subscribe_of_ne (hne rfl)
  | receive topic group => exact group?_receive_of_ne (hne rfl)
  | ack topic group p => exact group?_reject_of_ne p false (hne rfl)
  | reject topic group p requeue => exact group?_reject_of_ne p requeue (hne rfl)

/-! ## What is handed out -/

/-- Handing out leaves the logs as they are. -/
theorem messages_receive (b : State) (topic group t : String) :
    (b.receive topic group).2.messages t = b.messages t := by
  cases hr : b.receive topic group with | mk r b' =>
  cases r with
  | none => rw [receive_nothing hr, messages_subscribe]
  | some d =>
    obtain ⟨i, g', ht⟩ := receive_taken hr
    exact ht.messages t

/-- A rejected position leaves the logs as they are. -/
theorem messages_reject_getD (b : State) (topic group : String) (p : Position) (requeue : Bool)
    (t : String) :
    ((b.reject topic group p requeue).toOption.getD b).messages t = b.messages t := by
  cases hr : b.reject topic group p requeue with
  | ok b' => exact messages_reject hr t
  | error e => rfl

/-- **Whatever is handed out** is the message that was published at its index. -/
theorem exists_taken (hd : c.handsOut? b t g = some d) :
    ∃ i g', b.Taken t g d i g' (b.call c) := by
  cases c with
  | receive topic group =>
    have hout : (if t = topic ∧ g = group then (b.receive topic group).1 else none) = some d := hd
    split at hout
    · next h =>
      obtain ⟨rfl, rfl⟩ := h
      exact receive_taken (Prod.ext hout rfl)
    · cases hout
  | _ => cases hd

end State

namespace Call

variable {t g : String} {h : List Call} {c : Call} {d : Delivery}

/-- What a call publishes to a topic. -/
def publishes? (t : String) : Call → Option Message
  | .publish topic m => if t = topic then some m else none
  | _ => none

/-- What was published to a topic, in the order in which it was published. -/
def published (t : String) : List Call → List Message
  | [] => []
  | c :: h => published t h ++ (c.publishes? t).toList

/-- A call appends to a log what it publishes. -/
theorem messages_call (b : State) (c : Call) (t : String) :
    (b.call c).messages t = b.messages t ++ (c.publishes? t).toList := by
  cases c with
  | publish topic m =>
    have hpub : Call.publishes? t (.publish topic m) = if t = topic then some m else none := rfl
    rw [hpub]
    refine (messages_publish b topic m t).trans ?_
    split
    · next h => rw [h]; rfl
    · exact (List.append_nil _).symm
  | subscribe topic group =>
    exact (messages_subscribe b topic group t).trans (List.append_nil _).symm
  | receive topic group =>
    exact (messages_receive b topic group t).trans (List.append_nil _).symm
  | ack topic group p =>
    exact (messages_reject_getD b topic group p false t).trans (List.append_nil _).symm
  | reject topic group p requeue =>
    exact (messages_reject_getD b topic group p requeue t).trans (List.append_nil _).symm

/-- **The log of a topic is what was published to it**, in order. -/
theorem messages_eq_published (t : String) (h : List Call) :
    (after h).messages t = published t h := by
  induction h with
  | nil => rfl
  | cons c h ih => rw [after_cons, messages_call, ih, published]

/-- What a call hands out to a group as new, since nothing waits to be handed out again. -/
def handsOutNew? (b : State) (t g : String) (c : Call) : Option Delivery :=
  if (b.groupOf t g).redeliver = [] then c.handsOut? b t g else none

/-- What a group was handed as new, the first delivery first. -/
def newlyHandedOut (t g : String) : List Call → List Delivery
  | [] => []
  | c :: h => newlyHandedOut t g h ++ (c.handsOutNew? (after h) t g).toList

/-- The entries of a topic below an index: their positions and what was published there. -/
def entriesBelow (b : State) (t : String) (n : Nat) : List (Position × Option Message) :=
  (List.range n).map fun i => (position t i, (b.messages t)[i]?)

/-- A delivery as an entry of its topic. -/
def entry (d : Delivery) : Position × Option Message := (d.position, some d.message)

theorem entriesBelow_succ (b : State) (t : String) (n : Nat) :
    entriesBelow b t (n + 1) = entriesBelow b t n ++ [(position t n, (b.messages t)[n]?)] := by
  unfold entriesBelow
  rw [List.range_succ, List.map_append, List.map_singleton]

/-- Entries stay what they are. -/
theorem entriesBelow_of_grows {b b' : State} (hg : b.Grows b') {n : Nat}
    (hn : n ≤ (b.messages t).length) : entriesBelow b' t n = entriesBelow b t n := by
  refine List.map_congr_left fun i hi => ?_
  have hlt : i < (b.messages t).length := Nat.lt_of_lt_of_le (List.mem_range.mp hi) hn
  have hm := List.getElem?_eq_getElem hlt
  rw [hg.getElem? hm, hm]

/-- What is handed out as new is the next entry; otherwise the group stays where it is. -/
theorem next_call (c : Call) :
    (∃ d, c.handsOutNew? (after h) t g = some d ∧
      entry d = (position t ((after h).groupOf t g).next,
        ((after h).messages t)[((after h).groupOf t g).next]?) ∧
      ((after (c :: h)).groupOf t g).next = ((after h).groupOf t g).next + 1) ∨
    (c.handsOutNew? (after h) t g = none ∧
      ((after (c :: h)).groupOf t g).next = ((after h).groupOf t g).next) := by
  unfold handsOutNew?
  cases hd : c.handsOut? (after h) t g with
  | none =>
    refine Or.inr ⟨ite_self none, ?_⟩
    rw [after_cons]
    cases effect (after h) t g c with
    | idle _ _ hg => rw [hg]
    | resolved i requeue _ _ hg => rw [hg, Group.next_resolve]
    | handed i d _ hd' _ _ => rw [hd'] at hd; cases hd
  | some d =>
    obtain ⟨i, g', ht⟩ := exists_taken hd
    have hg : (after (c :: h)).groupOf t g = g' := by
      rw [after_cons, ht.groupOf, if_pos ⟨rfl, rfl⟩]
    rw [hg]
    rcases Group.take_cases ht.taken with ⟨rest, hr, rfl⟩ | ⟨hr, rfl, -, rfl⟩
    · rw [hr]
      exact Or.inr ⟨rfl, rfl⟩
    · refine Or.inl ⟨d, by rw [if_pos hr], ?_, rfl⟩
      unfold entry
      rw [ht.position, ht.read]

/-- **What a group was handed as new is the beginning of the log.** -/
theorem newlyHandedOut_eq (t g : String) (h : List Call) :
    (newlyHandedOut t g h).map entry =
      entriesBelow (after h) t ((after h).groupOf t g).next := by
  induction h with
  | nil => rfl
  | cons c h ih =>
    have hle := (within t g h).next_le
    have hgrows := grows_call (after h) c
    have hold := entriesBelow_of_grows hgrows hle
    rw [newlyHandedOut, List.map_append, ih]
    rcases next_call (h := h) (t := t) (g := g) c with ⟨d, hd, hentry, hnext⟩ | ⟨hd, hnext⟩
    · have hm : ((after (c :: h)).messages t)[((after h).groupOf t g).next]? = some d.message := by
        have hread := congrArg Prod.snd hentry
        exact hgrows.getElem? hread.symm
      rw [hd, hnext, entriesBelow_succ, after_cons, hold, ← after_cons, hm]
      unfold entry at hentry ⊢
      rw [Option.toList_some, List.map_singleton, (Prod.mk.inj hentry).1]
    · rw [hd, hnext, Option.toList_none, List.map_nil, List.append_nil, after_cons, hold]

/-! ## The backlog -/

/-- Taking leaves one hand-out less to come. -/
theorem backlog_take {gr gr' : Group} {length i : Nat} (ht : gr.take length = some (i, gr')) :
    gr'.backlog length + 1 = gr.backlog length := by
  unfold Group.backlog
  rcases Group.take_cases ht with ⟨rest, hr, rfl⟩ | ⟨hr, rfl, hlt, rfl⟩
  · rw [Group.redeliver_mark, Group.next_mark, hr, List.length_cons]
    exact Nat.add_assoc _ _ _
  · rw [Group.redeliver_mark, Group.next_mark]
    dsimp only
    omega

theorem backlog_eq (b : State) (t g : String) :
    b.backlog t g = (b.groupOf t g).backlog (b.messages t).length := rfl

/-- A receive is answered exactly when there is a backlog, and takes one from it. -/
theorem receive_backlog (t g : String) (h : List Call) :
    (((Call.receive t g).handsOut? (after h) t g).isSome = true ↔ 0 < (after h).backlog t g) ∧
      (after (.receive t g :: h)).backlog t g = (after h).backlog t g - 1 := by
  have hlog : (after (.receive t g :: h)).messages t = (after h).messages t :=
    messages_receive (after h) t g t
  rw [backlog_eq, backlog_eq, hlog]
  cases ht : ((after h).groupOf t g).take ((after h).messages t).length with
  | none =>
    have hzero := (Group.take_eq_none_iff _ _).mp ht
    rw [after_cons]
    cases effect (after h) t g (.receive t g) with
    | idle _ hd hg =>
      rw [hd, hg, hzero]
      exact ⟨⟨nofun, fun hpos => absurd hpos (Nat.lt_irrefl 0)⟩, rfl⟩
    | resolved _ _ hr _ _ => cases hr
    | handed i d _ _ _ ht' => rw [ht] at ht'; cases ht'
  | some p =>
    obtain ⟨i, gr'⟩ := p
    have hone := backlog_take ht
    obtain ⟨d, hd⟩ := exists_receive (within t g h) ht
    have hout : (Call.receive t g).handsOut? (after h) t g = some d := by
      rw [← hd]
      exact if_pos ⟨rfl, rfl⟩
    have hg : (after (.receive t g :: h)).groupOf t g = gr' := by
      rw [after_cons]
      cases effect (after h) t g (.receive t g) with
      | idle _ hd' _ => rw [hd'] at hout; cases hout
      | resolved _ _ hr _ _ => cases hr
      | handed i' d' _ _ _ ht' =>
        rw [ht] at ht'
        exact (Prod.mk.inj (Option.some.inj ht')).2.symm
    rw [hout, hg]
    exact ⟨⟨fun _ => by omega, fun _ => rfl⟩, by omega⟩

/-- The backlog after receives by one group and nothing else. -/
theorem backlog_replicate (t g : String) (h : List Call) (n : Nat) :
    (after (List.replicate n (.receive t g) ++ h)).backlog t g = (after h).backlog t g - n := by
  induction n with
  | zero => rfl
  | succ n ih =>
    rw [List.replicate_succ, List.cons_append, (receive_backlog t g _).2, ih]
    exact Nat.sub_sub _ _ _

/-- **The backlog is the number of receives that can be answered** when nothing else happens. -/
theorem isSome_receive_iff (t g : String) (h : List Call) (n : Nat) :
    ((Call.receive t g).handsOut? (after (List.replicate n (.receive t g) ++ h)) t g).isSome =
        true ↔ n < (after h).backlog t g := by
  rw [(receive_backlog t g _).1, backlog_replicate]
  omega

/-! ## The result -/

/-- **How the messages of a topic reach a group** by some calls. -/
structure Reaches (t g : String) (h : List Call) : Prop where
  /-- The log is what was published, in order. -/
  log : (after h).messages t = published t h
  /-- The group has got no further than the log, and all indices that it keeps are below. -/
  within : ((after h).groupOf t g).Within ((after h).messages t).length
  /-- So whatever it takes is in the log. -/
  in_log : ∀ i g', ((after h).groupOf t g).take ((after h).messages t).length = some (i, g') →
    i < ((after h).messages t).length
  /-- Whatever it is handed, as new or again, is the message at its index. -/
  read : ∀ c d, Call.handsOut? (after h) t g c = some d →
    ∃ i, d.position = position t i ∧ ((after h).messages t)[i]? = some d.message
  /-- What it was handed as new is the beginning of the log, in the order of the log. -/
  in_order : (newlyHandedOut t g h).map entry =
    entriesBelow (after h) t ((after h).groupOf t g).next
  /-- A call that does not name the group leaves it as it was. -/
  apart : ∀ c : Call, c.names? ≠ some (t, g) →
    (after (c :: h)).group? t g = (after h).group? t g
  /-- The backlog is the number of receives in a row that are answered by a delivery. -/
  backlog : ∀ n,
    ((Call.receive t g).handsOut? (after (List.replicate n (.receive t g) ++ h)) t g).isSome =
      true ↔ n < (after h).backlog t g

/-- **Every message of a topic reaches every group**, in order and once as new, whatever is
called. -/
theorem reaches_in_order (t g : String) (h : List Call) : Reaches t g h where
  log := messages_eq_published t h
  within := Call.within t g h
  in_log _ _ ht := (Call.within t g h).lt_of_take ht
  read _ _ hd := by
    obtain ⟨i, g', ht⟩ := exists_taken hd
    exact ⟨i, ht.position, ht.read⟩
  in_order := newlyHandedOut_eq t g h
  apart _ hc := group?_call hc
  backlog := isSome_receive_iff t g h

end Call

end TaskQueue.Broker
