import TaskQueue.Message.Basic

/-!
# The text of a position

A topic is any text, so it may hold colons and numbers, and the text of a position cannot be taken
apart from the left. From the right it can: an offset without a colon ends at the last one, and a
number holds none, so the number of the partition ends at the one before.

Results:

* `append_cons_inj_right`: a list is split in one way at the last of its separators;
* `render_inj`: **positions with plain offsets have texts of their own.**
-/

namespace TaskQueue

/-- In front of the last place where `a` stands there is nothing when it comes first. -/
theorem eq_nil_of_cons_eq {α : Type} {a : α} {rest back back' : List α} (h : a ∉ back)
    (heq : a :: back = rest ++ a :: back') : rest = [] := by
  cases rest with
  | nil => rfl
  | cons b rest =>
    rw [(List.cons.inj heq).2] at h
    exact absurd (List.mem_append_right _ List.mem_cons_self) h

/-- A list is split in one way at the last place where `a` stands. -/
theorem append_cons_inj_right {α : Type} {a : α} {front front' back back' : List α}
    (h : a ∉ back) (h' : a ∉ back') :
    front ++ a :: back = front' ++ a :: back' ↔ front = front' ∧ back = back' := by
  constructor
  · intro heq
    have hfront : front = front' := by
      rcases List.append_eq_append_iff.mp heq with ⟨rest, rfl, hrest⟩ | ⟨rest, rfl, hrest⟩
      · rw [eq_nil_of_cons_eq h hrest, List.append_nil]
      · rw [eq_nil_of_cons_eq h' hrest, List.append_nil]
    subst hfront
    exact ⟨rfl, (List.cons.inj (List.append_cancel_left heq)).2⟩
  · rintro ⟨rfl, rfl⟩
    rfl

theorem colon_notMem_repr (n : Nat) : ':' ∉ n.repr.toList := by
  rw [Nat.toList_repr]
  intro h
  exact absurd (Nat.isDigit_of_mem_toDigits (by decide) (by decide) h) (by decide)

namespace Position

variable {p q : Position}

/-- The offset holds no colon. -/
def Plain (p : Position) : Prop := ':' ∉ p.offset.toList

theorem toList_render (p : Position) : p.render.toList =
    (p.topic.toList ++ ':' :: p.partition.toNat.repr.toList) ++ ':' :: p.offset.toList := by
  have hcolon : ":".toList = [':'] := rfl
  simp only [render, String.toList_append, hcolon, List.append_assoc, List.cons_append,
    List.nil_append]

/-- **Positions with plain offsets have texts of their own**, whatever their topics hold. -/
theorem render_inj (hp : p.Plain) (hq : q.Plain) : p.render = q.render ↔ p = q := by
  constructor
  · intro h
    have hlist := congrArg String.toList h
    rw [toList_render, toList_render, append_cons_inj_right hp hq,
      append_cons_inj_right (colon_notMem_repr _) (colon_notMem_repr _)] at hlist
    obtain ⟨⟨htopic, hpartition⟩, hoffset⟩ := hlist
    have hnumber := Text.repr_injective (String.toList_inj.mp hpartition)
    cases p
    cases q
    rw [Position.mk.injEq]
    exact ⟨String.toList_inj.mp htopic, UInt32.toNat_inj.mp hnumber, String.toList_inj.mp hoffset⟩
  · rintro rfl
    rfl

/-- An offset with a colon can pass for a part of the topic. -/
example : (⟨"jobs", 0, "1:7"⟩ : Position).render = (⟨"jobs:0", 1, "7"⟩ : Position).render := by
  decide

end Position

end TaskQueue
