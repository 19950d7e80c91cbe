import TaskQueue.Proofs.Message.Position
import TaskQueue.Proofs.Redis.Retire

/-!
# Where a delivery from a stream comes from

A delivery has the topic of its consumer and the id of an entry that was read. A server gives ids of
two numbers around a dash.

Results:

* `Reading.position`: a delivery has the id of an entry that was brought;
* `receive_plain`: with ids of that form its offset holds no colon.
-/

namespace TaskQueue.Redis

open Engine

/-- The form of the ids that a server gives to entries: a time and a number, around a dash. -/
def StreamId (id : String) : Prop := ∃ time number : Nat, id = time.repr ++ "-" ++ number.repr

theorem StreamId.colon_notMem {id : String} (h : StreamId id) : ':' ∉ id.toList := by
  obtain ⟨time, number, rfl⟩ := h
  simp only [String.toList_append, List.mem_append, not_or]
  exact ⟨⟨colon_notMem_repr time, by decide⟩, colon_notMem_repr number⟩

namespace Consumer

variable {c c' : Consumer} {wait : Time.Span} {e : Entry} {es : Exchanges} {d : Delivery}
  {reads : Nat}

theorem unlessFailed_ne {r : Result Unit} {rest : Option Receipt}
    (h : rest ≠ some (.ok (some d))) : unlessFailed r rest ≠ some (.ok (some d)) := by
  cases r with
  | ok u => exact h
  | error e => exact nofun

theorem unmet_ne (c : Consumer) : c.unmet ≠ some (.ok (some d)) := by
  unfold unmet
  split <;> exact nofun

theorem Meeting.position (h : Meeting c e es (c', some (.ok (some d)))) :
    d.position = ⟨c.topic, 0, e.id⟩ := by
  generalize hp : (c', some (Except.ok (some d))) = p at h
  cases h with
  | dropped y drops => exact absurd (Prod.mk.inj hp).2.symm (unlessFailed_ne nofun)
  | delivered read =>
    cases hp
    rfl
  | reported now kept unread moved =>
    exact absurd (Prod.mk.inj hp).2.symm (unlessFailed_ne c.unmet_ne)

/-- A delivery has the id of an entry that was brought. -/
theorem Advanced.position (h : Advanced c wait es (c', some (.ok (some d)))) :
    ∃ e ∈ es.filterMap c.brought?, d.position = ⟨c.topic, 0, e.id⟩ := by
  generalize hp : (c', some (Except.ok (some d))) = p at h
  cases h with
  | failed found => cases hp
  | empty found => exact absurd (Prod.mk.inj hp).2.symm c.unmet_ne
  | @found x e es p found meeting =>
    subst hp
    refine ⟨e, List.mem_filterMap.mpr ⟨_, List.mem_cons_self, ?_⟩, meeting.position⟩
    unfold brought?
    dsimp only
    rw [found]

theorem Reading.position (h : Reading wait reads c es (c', some (.ok (some d)))) :
    ∃ e ∈ es.filterMap c.brought?, d.position = ⟨c.topic, 0, e.id⟩ := by
  generalize hp : (c', some (Except.ok (some d))) = p at h
  induction h with
  | unsettled c => cases hp
  | settled h =>
    cases hp
    exact h.position
  | goOn h rest ih =>
    obtain ⟨cursor, rfl⟩ := h.same
    obtain ⟨e, he, hpos⟩ := ih hp
    rw [List.filterMap_append]
    exact ⟨e, List.mem_append_right _ he, hpos⟩

theorem receive_plain (h : (c.receive wait reads).Ends es (c', some (.ok (some d))))
    (ids : ∀ e ∈ es.filterMap c.brought?, StreamId e.id) : d.position.Plain := by
  rcases receive_ends.mp h with ⟨-, hp⟩ | ⟨es', rfl, hreading⟩
  · cases hp
  · obtain ⟨e, he, hpos⟩ := hreading.position
    rw [hpos]
    exact (ids e he).colon_notMem

end Consumer

end TaskQueue.Redis
