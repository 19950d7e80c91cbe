import TaskQueue.Promotion.DelayQueue

/-!
# The order of a delay queue

What leaves a delay queue is told by due times alone: at an instant, the items leave that are due by
then, and all others stay. Items that are due at the same instant keep the order in which they came.

Results:

* `perm_push`, `sameDue_push`: a new item waits behind those of its due time;
* `takeDue_eq_filter`, `waiting_dropDue`: what leaves and what stays at an instant;
* `waiting_push`, `takeDue_push`, `dropDue_push`: an item that is due last.
-/

namespace TaskQueue.Promotion.DelayQueue

open Time

variable {α : Type} {q : DelayQueue α} {due now t : Instant} {item : α}

/-- The items that are due at one instant. -/
def sameDue (t : Instant) (vs : List (Waiting α)) : List (Waiting α) := vs.filter fun v => v.due = t

theorem sameDue_append (vs ws : List (Waiting α)) :
    sameDue t (vs ++ ws) = sameDue t vs ++ sameDue t ws := List.filter_append ..

/-! ## Coming -/

theorem perm_place (w : Waiting α) (vs : List (Waiting α)) : (place w vs).Perm (w :: vs) := by
  induction vs with
  | nil => exact List.Perm.refl _
  | cons u us ih =>
    unfold place
    split
    · exact (List.Perm.cons u ih).trans (List.Perm.swap w u us)
    · exact List.Perm.refl _

theorem perm_push (q : DelayQueue α) (due : Instant) (item : α) :
    (q.push due item).waiting.Perm (⟨due, item⟩ :: q.waiting) := perm_place _ _

/-- Among the items of one due time, a new one comes last. -/
theorem sameDue_place (w : Waiting α) {vs : List (Waiting α)}
    (h : vs.Pairwise fun a b => a.due ≤ b.due) :
    sameDue t (place w vs) = sameDue t (vs ++ [w]) := by
  induction vs with
  | nil => rfl
  | cons u us ih =>
    obtain ⟨hu, hus⟩ := List.pairwise_cons.mp h
    unfold place
    split
    · have ih := ih hus
      unfold sameDue at ih ⊢
      rw [List.cons_append, List.filter_cons, List.filter_cons, ih]
    · next hlt =>
      rw [sameDue_append]
      by_cases hw : w.due = t
      · -- nothing that waits here is due as early as the new item
        have none_left : sameDue t (u :: us) = [] := by
          unfold sameDue
          rw [List.filter_eq_nil_iff]
          intro v hv hvt
          have hvt : v.due = w.due := (of_decide_eq_true hvt).trans hw.symm
          rcases List.mem_cons.mp hv with rfl | hv
          · exact hlt (hvt ▸ Instant.le_refl _)
          · exact hlt (hvt ▸ hu v hv)
        have hcons : sameDue t (w :: u :: us) = w :: sameDue t (u :: us) :=
          List.filter_cons_of_pos (decide_eq_true hw)
        have hone : sameDue t [w] = [w] := List.filter_cons_of_pos (decide_eq_true hw)
        rw [hcons, none_left, hone, List.nil_append]
      · have hcons : sameDue t (w :: u :: us) = sameDue t (u :: us) :=
          List.filter_cons_of_neg fun hd => hw (of_decide_eq_true hd)
        have hone : sameDue t [w] = [] :=
          List.filter_cons_of_neg fun hd => hw (of_decide_eq_true hd)
        rw [hcons, hone, List.append_nil]

/-- **A new item waits behind those of its due time.** -/
theorem sameDue_push (q : DelayQueue α) (due : Instant) (item : α) :
    sameDue t (q.push due item).waiting = sameDue t (q.waiting ++ [⟨due, item⟩]) :=
  sameDue_place _ q.sorted

/-- An item that is due last waits behind all others. -/
theorem waiting_push (h : ∀ w ∈ q.waiting, w.due ≤ due) :
    (q.push due item).waiting = q.waiting ++ [⟨due, item⟩] := by
  have behind (vs : List (Waiting α)) (hvs : ∀ w ∈ vs, w.due ≤ due) :
      place ⟨due, item⟩ vs = vs ++ [⟨due, item⟩] := by
    induction vs with
    | nil => rfl
    | cons v vs ih =>
      obtain ⟨hv, hvs⟩ := List.forall_mem_cons.mp hvs
      rw [place, if_pos hv, ih hvs, List.cons_append]
  exact behind q.waiting h

/-! ## Leaving -/

/-- When a list begins with all that satisfies a predicate, taking and dropping is filtering. -/
theorem takeWhile_eq_filter {β : Type} {p : β → Bool} {l : List β}
    (h : l.Pairwise fun a b => p b = true → p a = true) :
    l.takeWhile p = l.filter p ∧ l.dropWhile p = l.filter fun b => !p b := by
  induction l with
  | nil => exact ⟨rfl, rfl⟩
  | cons a l ih =>
    obtain ⟨ha, hl⟩ := List.pairwise_cons.mp h
    cases hp : p a with
    | true =>
      obtain ⟨ht, hd⟩ := ih hl
      rw [List.takeWhile_cons_of_pos hp, List.dropWhile_cons_of_pos hp, List.filter_cons_of_pos hp,
        List.filter_cons_of_neg (by simp [hp]), ht, hd]
      exact ⟨rfl, rfl⟩
    | false =>
      have hneg : ¬ p a = true := by simp [hp]
      have none_left : ∀ b ∈ a :: l, p b = false := by
        intro b hb
        rcases List.mem_cons.mp hb with rfl | hb
        · exact hp
        · exact Bool.eq_false_iff.mpr fun hpb => hneg (ha b hb hpb)
      rw [List.takeWhile_cons_of_neg hneg, List.dropWhile_cons_of_neg hneg]
      constructor
      · refine (List.filter_eq_nil_iff.mpr fun b hb => ?_).symm
        rw [none_left b hb]
        exact Bool.false_ne_true
      · refine (List.filter_eq_self.mpr fun b hb => ?_).symm
        rw [none_left b hb]
        rfl

/-- What is due by an instant comes before what is not. -/
theorem due_first (q : DelayQueue α) (now : Instant) :
    q.waiting.Pairwise fun a b => decide (b.due ≤ now) = true → decide (a.due ≤ now) = true :=
  q.sorted.imp fun hab hb => decide_eq_true (Instant.le_trans hab (of_decide_eq_true hb))

/-- **The items leave that are due**, in the order in which they wait. -/
theorem takeDue_eq_filter (q : DelayQueue α) (now : Instant) :
    q.takeDue now = (q.waiting.filter fun v => v.due ≤ now).map Waiting.item := by
  unfold takeDue
  rw [(takeWhile_eq_filter (q.due_first now)).1]

/-- **The items stay that are not due.** -/
theorem waiting_dropDue (q : DelayQueue α) (now : Instant) :
    (q.dropDue now).waiting = q.waiting.filter fun v => !decide (v.due ≤ now) :=
  (takeWhile_eq_filter (q.due_first now)).2

/-- When the last item is due, all are. -/
theorem due_push (h : ∀ w ∈ q.waiting, w.due ≤ due) {w : Waiting α}
    (hw : w ∈ (q.push due item).waiting) : w.due ≤ due := by
  rcases mem_push.mp hw with rfl | hw
  · exact Instant.le_refl due
  · exact h w hw

theorem takeDue_push (h : ∀ w ∈ q.waiting, w.due ≤ due) :
    (q.push due item).takeDue due = q.waiting.map Waiting.item ++ [item] := by
  rw [takeDue_eq_filter, List.filter_eq_self.mpr fun w hw => decide_eq_true (due_push h hw),
    waiting_push h, List.map_append]
  rfl

theorem dropDue_push (h : ∀ w ∈ q.waiting, w.due ≤ due) : (q.push due item).dropDue due = ∅ := by
  have hnone : ((q.push due item).dropDue due).waiting = [] := by
    rw [waiting_dropDue, List.filter_eq_nil_iff]
    intro w hw
    simp [due_push h hw]
  cases hd : (q.push due item).dropDue due with
  | mk waiting sorted =>
    rw [hd] at hnone
    subst hnone
    rfl

end TaskQueue.Promotion.DelayQueue
