import TaskQueue.Broker.Basic
import TaskQueue.Proofs.Broker.Group
import TaskQueue.Proofs.Message.Position

/-!
# What a change of a broker leaves

A broker is looked at in two ways: by the log of a topic, and by what a group has got to in a topic.
Each operation is described by what it does to these.

Results:

* `messages_publish`, `groupOf_publish` and so on: the two views after each operation;
* `receive_taken`, `receive_nothing`: what handing out does;
* `plain_receive`, `message_eq`: the text of its position tells the message of a delivery;
* `ack_position`, `reject_position`: settling the position of an index settles the index.
-/

namespace TaskQueue.Broker.State

open Text

/-- What a group has got to; one that was never joined has got nowhere. -/
def groupOf (b : State) (topic group : String) : Group := (b.group? topic group).getD .fresh

/-- Indices of logs have 64 bits. -/
def Fits (b : State) : Prop := ∀ topic, (b.messages topic).length ≤ maxNat64 + 1

/-- Logs have only grown. -/
def Grows (b b' : State) : Prop := ∀ topic, b.messages topic <+: b'.messages topic

variable {b b' b'' : State} {topic group : String} {m : Message} {d : Delivery} {i : Nat}

theorem Grows.refl (b : State) : b.Grows b := fun _ => List.prefix_refl _

theorem Grows.trans (h : b.Grows b') (h' : b'.Grows b'') : b.Grows b'' :=
  fun t => (h t).trans (h' t)

theorem Grows.of_messages_eq (h : ∀ t, b'.messages t = b.messages t) : b.Grows b' :=
  fun t => (h t).symm ▸ List.prefix_refl _

theorem Grows.fits (h : b.Grows b') (hf : b'.Fits) : b.Fits :=
  fun t => Nat.le_trans (h t).length_le (hf t)

/-- A message keeps its index. -/
theorem Grows.getElem? (h : b.Grows b') (hm : (b.messages topic)[i]? = some m) :
    (b'.messages topic)[i]? = some m := by
  obtain ⟨hi, rfl⟩ := List.getElem?_eq_some_iff.mp hm
  exact List.prefix_iff_getElem?.mp (h topic) i hi

/-! ## Topics -/

theorem topic_publish (b : State) (topic : String) (m : Message) (name : String) :
    (b.publish topic m).topic name =
      if name = topic then (b.topic topic).append m else b.topic name := by
  unfold State.topic publish
  rw [Dict.get?_update]
  split
  · rfl
  · rfl

theorem topic_subscribe (b : State) (topic group name : String) :
    (b.subscribe topic group).topic name =
      if name = topic then (b.topic topic).join group else b.topic name := by
  unfold State.topic subscribe
  rw [Dict.get?_update]
  split
  · rfl
  · rfl

theorem topic_changeGroup (b : State) (topic group : String) (f : Group → Group) (name : String) :
    (b.changeGroup topic group f).topic name =
      if name = topic then
        { b.topic topic with groups := (b.topic topic).groups.modify group f }
      else b.topic name := by
  unfold State.topic changeGroup
  rw [Dict.get?_modify]
  split
  · cases b.topics.get? topic with
    | none => rfl
    | some t => rfl
  · rfl

/-! ## Logs -/

theorem messages_publish (b : State) (topic : String) (m : Message) (t : String) :
    (b.publish topic m).messages t =
      if t = topic then b.messages topic ++ [m] else b.messages t := by
  unfold messages
  rw [topic_publish]
  split
  · rfl
  · rfl

@[simp] theorem messages_publish_self (b : State) (topic : String) (m : Message) :
    (b.publish topic m).messages topic = b.messages topic ++ [m] := by
  rw [messages_publish, if_pos rfl]

theorem messages_publish_of_ne {t : String} (h : t ≠ topic) :
    (b.publish topic m).messages t = b.messages t := by
  rw [messages_publish, if_neg h]

/-- A log grows by one message at most. -/
theorem length_publish_le (b : State) (topic : String) (m : Message) (t : String) :
    ((b.publish topic m).messages t).length ≤ (b.messages t).length + 1 := by
  rw [messages_publish]
  split
  · next h =>
    rw [h, List.length_append]
    exact Nat.le_refl _
  · exact Nat.le_succ _

@[simp] theorem messages_subscribe (b : State) (topic group t : String) :
    (b.subscribe topic group).messages t = b.messages t := by
  unfold messages
  rw [topic_subscribe]
  split
  · next h => rw [h]; rfl
  · rfl

@[simp] theorem messages_changeGroup (b : State) (topic group : String) (f : Group → Group)
    (t : String) : (b.changeGroup topic group f).messages t = b.messages t := by
  unfold messages
  rw [topic_changeGroup]
  split
  · next h => rw [h]
  · rfl

theorem grows_publish (b : State) (topic : String) (m : Message) : b.Grows (b.publish topic m) := by
  intro t
  rw [messages_publish]
  split
  · next h => rw [h]; exact List.prefix_append _ _
  · exact List.prefix_refl _

theorem grows_subscribe (b : State) (topic group : String) : b.Grows (b.subscribe topic group) :=
  .of_messages_eq fun t => messages_subscribe b topic group t

/-! ## Groups -/

@[simp] theorem groupOf_publish (b : State) (topic : String) (m : Message) (t g : String) :
    (b.publish topic m).groupOf t g = b.groupOf t g := by
  unfold groupOf group?
  rw [topic_publish]
  split
  · next h => rw [h]; rfl
  · rfl

@[simp] theorem groupOf_subscribe (b : State) (topic group t g : String) :
    (b.subscribe topic group).groupOf t g = b.groupOf t g := by
  unfold groupOf group?
  rw [topic_subscribe]
  split
  · next h =>
    subst h
    simp only [Topic.join, Dict.get?_update]
    split
    · next h => rw [h]; rfl
    · rfl
  · rfl

theorem group?_subscribe_self (b : State) (topic group : String) :
    (b.subscribe topic group).group? topic group = some (b.groupOf topic group) := by
  unfold group?
  rw [topic_subscribe, if_pos rfl]
  simp only [Topic.join, Dict.get?_update, if_pos]
  rfl

theorem group?_changeGroup (b : State) (topic group : String) (f : Group → Group) (t g : String) :
    (b.changeGroup topic group f).group? t g =
      if t = topic ∧ g = group then (b.group? topic group).map f else b.group? t g := by
  unfold group?
  rw [topic_changeGroup]
  by_cases ht : t = topic
  · subst ht
    simp only [if_pos, Dict.get?_modify, true_and]
  · simp only [ht, false_and, if_false]

/-- A change that leaves a fresh group alone changes what the group has got to. -/
theorem groupOf_changeGroup {f : Group → Group} (hf : f .fresh = .fresh) (t g : String) :
    (b.changeGroup topic group f).groupOf t g =
      if t = topic ∧ g = group then f (b.groupOf topic group) else b.groupOf t g := by
  unfold groupOf
  rw [group?_changeGroup]
  split
  · cases b.group? topic group with
    | none => exact hf.symm
    | some g => rfl
  · rfl

/-! ## Handing out -/

/-- Index `i` is handed out to a group as `d`, which brings the group to `g`. -/
structure Taken (b : State) (topic group : String) (d : Delivery) (i : Nat) (g : Group)
    (b' : State) : Prop where
  taken : (b.groupOf topic group).take (b.messages topic).length = some (i, g)
  read : (b.messages topic)[i]? = some d.message
  position : d.position = State.position topic i
  count : d.count = g.handOuts i
  messages : ∀ t, b'.messages t = b.messages t
  groupOf : ∀ t g', b'.groupOf t g' = if t = topic ∧ g' = group then g else b.groupOf t g'

/-- **A delivery is a message of the log**, handed out to the group. -/
theorem receive_taken (h : b.receive topic group = (some d, b')) :
    ∃ i g, b.Taken topic group d i g b' := by
  unfold receive at h
  simp only at h
  split at h
  · cases h
  · next i g ht =>
    split at h
    · cases h
    · next m hm =>
      obtain ⟨hd, rfl⟩ := Prod.mk.inj h
      obtain rfl := Option.some.inj hd
      change (((b.subscribe topic group).group? topic group).getD .fresh).take
        ((b.subscribe topic group).messages topic).length = some (i, g) at ht
      rw [group?_subscribe_self, messages_subscribe] at ht
      refine ⟨i, g, ht, ?_, rfl, rfl, fun t => ?_, fun t g' => ?_⟩
      · rw [← messages_subscribe b topic group topic]
        exact hm
      · rw [messages_changeGroup, messages_subscribe]
      · unfold State.groupOf
        rw [group?_changeGroup, group?_subscribe_self]
        split
        · rfl
        · exact groupOf_subscribe b topic group t g'

/-- When there is nothing to hand out, all stays as it is. -/
theorem receive_nothing (h : b.receive topic group = (none, b')) :
    b' = b.subscribe topic group := by
  unfold receive at h
  simp only at h
  split at h
  · exact (Prod.mk.inj h).2.symm
  · split at h
    · exact (Prod.mk.inj h).2.symm
    · cases h

theorem grows_receive {r : Option Delivery} (h : b.receive topic group = (r, b')) : b.Grows b' := by
  cases r with
  | none =>
    rw [receive_nothing h]
    exact grows_subscribe b topic group
  | some d =>
    obtain ⟨i, g, ht⟩ := receive_taken h
    exact .of_messages_eq ht.messages

/-! ## Settling -/

/-- Different indices have different positions. -/
theorem position_injective {j : Nat} (h : position topic i = position topic j) : i = j :=
  repr_injective (congrArg Position.offset h)

theorem plain_position (topic : String) (i : Nat) : (position topic i).Plain :=
  colon_notMem_repr i

theorem plain_receive (h : b.receive topic group = (some d, b')) : d.position.Plain := by
  obtain ⟨i, g, taken⟩ := receive_taken h
  rw [taken.position]
  exact plain_position topic i

/-- Deliveries with one text of their positions hold one message, however much later the second is
handed out. -/
theorem message_eq {b₁ b₁' : State} {topic' group' : String} {d' : Delivery}
    (h : b.receive topic group = (some d, b')) (hg : b'.Grows b₁)
    (h' : b₁.receive topic' group' = (some d', b₁'))
    (htext : d.position.render = d'.position.render) : d.message = d'.message := by
  obtain ⟨i, g, taken⟩ := receive_taken h
  obtain ⟨j, g', taken'⟩ := receive_taken h'
  have hpos := (Position.render_inj (plain_receive h) (plain_receive h')).mp htext
  rw [taken.position, taken'.position] at hpos
  obtain rfl : topic = topic' := congrArg Position.topic hpos
  obtain rfl := position_injective hpos
  have hread : (b₁.messages topic)[i]? = some d.message :=
    hg.getElem? ((taken.messages topic).symm ▸ taken.read)
  rw [taken'.read] at hread
  exact (Option.some.inj hread).symm

theorem index?_position (topic : String) (h : i ≤ maxNat64) :
    index? (position topic i) = .ok i := by
  unfold index? position
  simp only [natural?_repr h]

theorem Fits.index_le (hf : b.Fits) (hm : (b.messages topic)[i]? = some m) : i ≤ maxNat64 := by
  obtain ⟨hi, -⟩ := List.getElem?_eq_some_iff.mp hm
  have := hf topic
  omega

theorem ack_position (b : State) (topic group : String) (h : i ≤ maxNat64) :
    b.ack topic group (position topic i) = .ok (b.changeGroup topic group (·.settle i)) := by
  unfold ack
  rw [index?_position topic h]
  rfl

theorem reject_position (b : State) (topic group : String) (requeue : Bool) (h : i ≤ maxNat64) :
    b.reject topic group (position topic i) requeue =
      .ok (b.changeGroup topic group fun g => if requeue then g.requeue i else g.settle i) := by
  unfold reject
  rw [index?_position topic h]
  rfl

theorem messages_ack {p : Position} (h : b.ack topic group p = .ok b') (t : String) :
    b'.messages t = b.messages t := by
  unfold ack at h
  cases hi : index? p with
  | error e => rw [hi] at h; cases h
  | ok i =>
    rw [hi] at h
    obtain rfl := Except.ok.inj h
    exact messages_changeGroup b topic group _ t

theorem messages_reject {p : Position} {requeue : Bool}
    (h : b.reject topic group p requeue = .ok b') (t : String) :
    b'.messages t = b.messages t := by
  unfold reject at h
  cases hi : index? p with
  | error e => rw [hi] at h; cases h
  | ok i =>
    rw [hi] at h
    obtain rfl := Except.ok.inj h
    exact messages_changeGroup b topic group _ t

theorem groupOf_settle (b : State) (topic group : String) (i : Nat) (t g : String) :
    (b.changeGroup topic group (·.settle i)).groupOf t g =
      if t = topic ∧ g = group then (b.groupOf topic group).settle i else b.groupOf t g :=
  groupOf_changeGroup rfl t g

theorem groupOf_requeue (b : State) (topic group : String) (i : Nat) (t g : String) :
    (b.changeGroup topic group (·.requeue i)).groupOf t g =
      if t = topic ∧ g = group then (b.groupOf topic group).requeue i else b.groupOf t g :=
  groupOf_changeGroup rfl t g

end TaskQueue.Broker.State
