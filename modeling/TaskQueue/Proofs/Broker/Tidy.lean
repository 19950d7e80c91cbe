import Mathlib.Data.List.Count
import TaskQueue.Proofs.Broker.Group

/-!
# Groups whose members settle what they like

A member may settle or give back an index that it does not hold, or do so again. What a group keeps
whatever its members do is `Within`: its indices were handed out. What it keeps only as long as
nobody resolves a waiting index is `Tidy`: the indices that wait are pending, each listed once. An
index is `Spent` when it was handed out and is neither pending nor waiting.

Results:

* `Within.take`, `Within.resolve`: indices stay within what was handed out;
* `Tidy.resolve_iff`: **resolving an index keeps a group tidy exactly when it is not waiting**;
* `Spent.take`, `Spent.resolve`, `Spent.ne_of_take`: a spent index is never handed out again;
* `count_take`, `count_resolve`: how often an index waits after each operation.
-/

namespace TaskQueue.Broker.Group

/-- Whatever waits or is pending was handed out, and whatever was handed out is in the log. -/
structure Within (g : Group) (length : Nat) : Prop where
  next_le : g.next ≤ length
  pending_lt : ∀ i, g.pending.contains i = true → i < g.next
  redeliver_lt : ∀ i ∈ g.redeliver, i < g.next

/-- No index waits twice, and only pending ones wait. -/
structure Tidy (g : Group) : Prop where
  nodup : g.redeliver.Nodup
  pending : ∀ i ∈ g.redeliver, g.pending.contains i = true

/-- The index was handed out, and there is nothing left to do for it. -/
structure Spent (g : Group) (i : Nat) : Prop where
  lt : i < g.next
  not_waiting : i ∉ g.redeliver
  not_pending : g.pending.contains i = false

/-- An index is given back, or it is done with. -/
def resolve (g : Group) (i : Nat) (requeue : Bool) : Group :=
  if requeue then g.requeue i else g.settle i

variable {g g' : Group} {length i j : Nat} {requeue : Bool}

theorem sound_iff : g.Sound length ↔ g.Within length ∧ g.Tidy := by
  constructor
  · intro h
    exact ⟨⟨h.next_le, h.pending_lt, fun i hi => h.pending_lt i (h.redeliver_pending i hi)⟩,
      h.nodup, h.redeliver_pending⟩
  · rintro ⟨hw, ht⟩
    exact ⟨hw.next_le, hw.pending_lt, ht.pending, ht.nodup⟩

theorem within_fresh (length : Nat) : Group.fresh.Within length :=
  (sound_iff.mp (fresh_sound length)).1

theorem tidy_fresh : Group.fresh.Tidy := (sound_iff.mp (fresh_sound 0)).2

theorem Within.mono (h : g.Within length) {length' : Nat} (hle : length ≤ length') :
    g.Within length' :=
  { h with next_le := Nat.le_trans h.next_le hle }

/-! ## Resolving -/

@[simp] theorem next_resolve (g : Group) (i : Nat) (requeue : Bool) :
    (g.resolve i requeue).next = g.next := by
  unfold resolve Group.requeue
  split
  · split <;> rfl
  · rfl

theorem contains_resolve (h : (g.resolve i requeue).pending.contains j = true) :
    g.pending.contains j = true := by
  unfold resolve Group.requeue at h
  split at h
  · split at h <;> exact h
  · exact ((Dict.contains_erase _ _ _).mp h).2

/-- What waits after an index was resolved. -/
theorem redeliver_resolve (g : Group) (i : Nat) (requeue : Bool) :
    (g.resolve i requeue).redeliver =
      if requeue = true ∧ g.pending.contains i = true then g.redeliver ++ [i] else g.redeliver := by
  unfold resolve Group.requeue
  cases requeue with
  | false => rfl
  | true =>
    by_cases hp : g.pending.contains i = true
    · simp only [hp, if_true, and_self]
    · simp only [hp, if_true]
      rfl

theorem Within.resolve (h : g.Within length) : (g.resolve i requeue).Within length where
  next_le := (next_resolve g i requeue).symm ▸ h.next_le
  pending_lt := by
    intro j hj
    rw [next_resolve]
    exact h.pending_lt j (contains_resolve hj)
  redeliver_lt := by
    intro j hj
    rw [redeliver_resolve] at hj
    rw [next_resolve]
    split at hj
    · next hi =>
      rcases List.mem_append.mp hj with hj | hj
      · exact h.redeliver_lt j hj
      · rw [List.mem_singleton.mp hj]
        exact h.pending_lt i hi.2
    · exact h.redeliver_lt j hj

/-- **Resolving an index keeps a group tidy** exactly when the index is not waiting. -/
theorem Tidy.resolve_iff (hw : g.Within length) (ht : g.Tidy) :
    (g.resolve i requeue).Tidy ↔ i ∉ g.redeliver := by
  have hs : g.Sound length := sound_iff.mpr ⟨hw, ht⟩
  constructor
  · intro h hi
    cases requeue with
    | false =>
      have hp : (g.settle i).pending.contains i = true := h.pending i hi
      exact ((Dict.contains_erase _ _ _).mp hp).1 rfl
    | true =>
      have hn := h.nodup
      rw [redeliver_resolve, if_pos ⟨rfl, ht.pending i hi⟩] at hn
      exact (List.nodup_append.mp hn).2.2 i hi i List.mem_cons_self rfl
  · intro hi
    cases requeue with
    | false => exact (sound_iff.mp (settle_sound hs hi)).2
    | true => exact (sound_iff.mp (requeue_sound hs hi)).2

theorem Spent.resolve (h : g.Spent j) : (g.resolve i requeue).Spent j where
  lt := (next_resolve g i requeue).symm ▸ h.lt
  not_waiting := by
    intro hj
    rw [redeliver_resolve] at hj
    split at hj
    · next hi =>
      rcases List.mem_append.mp hj with hj | hj
      · exact h.not_waiting hj
      · rw [List.mem_singleton.mp hj] at h
        exact absurd hi.2 (by simp [h.not_pending])
    · exact h.not_waiting hj
  not_pending := by
    by_contra hj
    have := contains_resolve (Bool.of_not_eq_false hj)
    rw [h.not_pending] at this
    cases this

/-- An index that was handed out is spent when it is settled and does not wait. -/
theorem spent_settle (hlt : i < g.next) (hi : i ∉ g.redeliver) : (g.resolve i false).Spent i where
  lt := hlt
  not_waiting := hi
  not_pending := by
    by_contra hp
    exact ((Dict.contains_erase _ _ _).mp (Bool.of_not_eq_false hp)).1 rfl

/-- How often an index waits after one was resolved. -/
theorem count_resolve (g : Group) (i j : Nat) (requeue : Bool) :
    (g.resolve i requeue).redeliver.count j =
      g.redeliver.count j +
        if requeue = true ∧ g.pending.contains i = true ∧ i = j then 1 else 0 := by
  rw [redeliver_resolve]
  by_cases hi : requeue = true ∧ g.pending.contains i = true
  · rw [if_pos hi, List.count_append, List.count_singleton]
    simp [hi]
  · rw [if_neg hi, if_neg fun h => hi ⟨h.1, h.2.1⟩]
    rfl

/-! ## Handing out -/

theorem Within.take (h : g.Within length) (ht : g.take length = some (i, g')) :
    g'.Within length := by
  rcases take_cases ht with ⟨rest, hr, rfl⟩ | ⟨hr, rfl, hlt, rfl⟩
  · have hi : i < g.next := h.redeliver_lt i (by simp [hr])
    refine ⟨h.next_le, fun j hj => ?_, fun j hj => h.redeliver_lt j ?_⟩
    · rcases (contains_mark _ _ _).mp hj with rfl | hj
      · exact hi
      · exact h.pending_lt j hj
    · rw [hr]
      exact List.mem_cons_of_mem _ hj
  · refine ⟨hlt, fun j hj => ?_, fun j hj => ?_⟩
    · rcases (contains_mark _ _ _).mp hj with rfl | hj
      · exact Nat.lt_succ_self _
      · exact Nat.lt_succ_of_lt (h.pending_lt j hj)
    · exact Nat.lt_succ_of_lt (h.redeliver_lt j hj)

/-- Whatever is handed out is in the log. -/
theorem Within.lt_of_take (h : g.Within length) (ht : g.take length = some (i, g')) :
    i < length := by
  rcases take_cases ht with ⟨rest, hr, -⟩ | ⟨-, rfl, hlt, -⟩
  · exact Nat.lt_of_lt_of_le (h.redeliver_lt i (by simp [hr])) h.next_le
  · exact hlt

theorem Tidy.take (hw : g.Within length) (h : g.Tidy) (ht : g.take length = some (i, g')) :
    g'.Tidy :=
  (sound_iff.mp (take_sound (sound_iff.mpr ⟨hw, h⟩) ht)).2

/-- Which indices were handed out after one more was. -/
theorem lt_next_take (h : g.Within length) (ht : g.take length = some (i, g')) :
    j < g'.next ↔ j = i ∨ j < g.next := by
  rcases take_cases ht with ⟨rest, hr, rfl⟩ | ⟨-, rfl, -, rfl⟩
  · have hi : i < g.next := h.redeliver_lt i (by simp [hr])
    rw [next_mark]
    constructor
    · exact Or.inr
    · rintro (rfl | hj)
      · exact hi
      · exact hj
  · rw [next_mark, Nat.lt_succ_iff_lt_or_eq]
    exact Or.comm

theorem Spent.ne_of_take (h : g.Spent j) (ht : g.take length = some (i, g')) : j ≠ i := by
  rintro rfl
  rcases take_cases ht with ⟨rest, hr, -⟩ | ⟨-, rfl, -, -⟩
  · exact h.not_waiting (by simp [hr])
  · exact Nat.lt_irrefl _ h.lt

theorem Spent.take (h : g.Spent j) (ht : g.take length = some (i, g')) : g'.Spent j := by
  have hne := h.ne_of_take ht
  refine ⟨?_, fun hj => h.not_waiting (mem_redeliver_of_take ht hj), ?_⟩
  · rcases take_cases ht with ⟨rest, hr, rfl⟩ | ⟨-, rfl, -, rfl⟩
    · exact h.lt
    · exact Nat.lt_succ_of_lt h.lt
  · by_contra hj
    rcases take_cases ht with ⟨rest, hr, rfl⟩ | ⟨-, rfl, -, rfl⟩
    all_goals
      rcases (contains_mark _ _ _).mp (Bool.of_not_eq_false hj) with rfl | hj
      · exact hne rfl
      · rw [h.not_pending] at hj
        cases hj

/-- **A hand-out is a new index or one that waited**: an index that is handed out waits once less,
unless it was never handed out before. -/
theorem count_take (ht : g.take length = some (i, g')) (j : Nat) :
    g'.redeliver.count j + (if i = j then 1 else 0) + (if j < g.next then 1 else 0) =
      g.redeliver.count j + if j < g'.next then 1 else 0 := by
  rcases take_cases ht with ⟨rest, hr, rfl⟩ | ⟨-, rfl, -, rfl⟩
  · rw [redeliver_mark, next_mark, hr]
    by_cases hi : i = j
    · subst hi
      simp
    · simp [hi]
  · simp only [redeliver_mark, next_mark]
    split
    · next hj =>
      subst hj
      simp
    · next hj =>
      have : j < g.next + 1 ↔ j < g.next := by omega
      simp only [this, Nat.add_zero]

end TaskQueue.Broker.Group
