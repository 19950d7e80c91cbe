import TaskQueue.Proofs.Broker.Exclusive

/-!
# The next message of a group

A group whose members settle what they take, and give nothing back, is handed the messages of a
topic one after the other, each for the first time.

Results:

* `NextAt.publish`, `NextAt.settle`: what leaves a group where it is;
* `NextAt.exists_receive`: the group is handed the message that is next, and is at the one after.
-/

namespace TaskQueue.Broker

/-- When nothing is to be handed out again, the next index is. -/
theorem Group.take_next {g : Group} {length : Nat} (hr : g.redeliver = [])
    (hlt : g.next < length) :
    g.take length = some (g.next, { g with next := g.next + 1 }.mark g.next) := by
  unfold take
  split
  · next he =>
    rw [hr] at he
    cases he
  · exact if_pos hlt

namespace State

/-- **The message at an index is next** for a group: all before were handed out, and none of them is
to be handed out again. -/
structure NextAt (b : State) (topic group : String) (n : Nat) : Prop where
  next : (b.groupOf topic group).next = n
  redeliver : (b.groupOf topic group).redeliver = []
  pending_lt : ∀ i, (b.groupOf topic group).pending.contains i = true → i < n

variable {b b' : State} {topic group t g : String} {m : Message} {n i : Nat}

theorem nextAt_empty (topic group : String) : (∅ : State).NextAt topic group 0 :=
  ⟨rfl, rfl, nofun⟩

theorem NextAt.congr (h : b.NextAt topic group n)
    (hg : b'.groupOf topic group = b.groupOf topic group) : b'.NextAt topic group n :=
  ⟨hg ▸ h.next, hg ▸ h.redeliver, hg ▸ h.pending_lt⟩

theorem NextAt.publish (h : b.NextAt topic group n) : (b.publish t m).NextAt topic group n :=
  h.congr (groupOf_publish b t m topic group)

theorem NextAt.settle (h : b.NextAt topic group n) :
    (b.changeGroup t g (·.settle i)).NextAt topic group n := by
  have hg := groupOf_settle b t g i topic group
  split at hg
  · next he =>
    obtain ⟨rfl, rfl⟩ := he
    refine ⟨hg ▸ h.next, hg ▸ h.redeliver, fun j hj => h.pending_lt j ?_⟩
    rw [hg] at hj
    exact ((Dict.contains_erase _ _ _).mp hj).2
  · exact h.congr hg

/-- **The group is handed the message that is next**, for the first time. No log has changed, and no
other group. -/
theorem NextAt.exists_receive (h : b.NextAt topic group n)
    (hm : (b.messages topic)[n]? = some m) :
    ∃ b', b.receive topic group = (some ⟨position topic n, m, 1⟩, b') ∧
      b'.NextAt topic group (n + 1) ∧ (∀ t, b'.messages t = b.messages t) ∧
      ∀ t g, ¬ (t = topic ∧ g = group) → b'.groupOf t g = b.groupOf t g := by
  have hlt : n < (b.messages topic).length := (List.getElem?_eq_some_iff.mp hm).1
  have htake := Group.take_next h.redeliver (h.next.symm ▸ hlt)
  rw [h.next] at htake
  have within : (b.groupOf topic group).Within (b.messages topic).length :=
    ⟨h.next ▸ Nat.le_of_lt hlt, fun i hi => h.next.symm ▸ h.pending_lt i hi,
      fun i hi => nomatch h.redeliver ▸ hi⟩
  obtain ⟨d, hd⟩ := State.exists_receive within htake
  obtain ⟨i, g', taken⟩ := receive_taken (Prod.ext hd rfl)
  obtain ⟨rfl, rfl⟩ := Prod.mk.inj (Option.some.inj (htake.symm.trans taken.taken))
  have hnew : (b.groupOf topic group).pending.contains n = false := by
    by_contra hp
    exact Nat.lt_irrefl n (h.pending_lt n (Bool.of_not_eq_false hp))
  have hcount : d.count = 1 := by
    rw [taken.count, Group.handOuts_mark, if_pos rfl]
    exact congrArg (· + 1) (Group.handOuts_eq_zero hnew)
  have hmsg : d.message = m := Option.some.inj (taken.read.symm.trans hm)
  have hgroup := taken.groupOf topic group
  rw [if_pos ⟨rfl, rfl⟩] at hgroup
  refine ⟨_, Prod.ext (hd.trans ?_) rfl, ⟨congrArg Group.next hgroup, ?_, fun j hj => ?_⟩,
    taken.messages, fun t g hne => ?_⟩
  · rw [← taken.position, ← hmsg, ← hcount]
  · rw [hgroup]
    exact h.redeliver
  · rw [hgroup] at hj
    rcases (Group.contains_mark _ _ _).mp hj with rfl | hj
    · exact Nat.lt_succ_self _
    · exact Nat.lt_succ_of_lt (h.pending_lt j hj)
  · rw [taken.groupOf, if_neg hne]

end State

end TaskQueue.Broker
