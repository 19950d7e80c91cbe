import TaskQueue.Broker.Group
import TaskQueue.Proofs.Dict

/-!
# Groups whose members settle what they took

The members of a group settle or give back a hand-out at most once, and only what they took
themselves. Then a group is `Sound`: what is pending was handed out, and what is to be handed out
again is pending and listed once. An index is `Unsettled` as long as it may still be resolved: it
was never handed out, or it is pending.

Results:

* `take_sound`, `settle_sound`, `requeue_sound`: the operations keep a group sound;
* `unsettled_take`, `unsettled_settle`, `unsettled_requeue`: only settling takes an index away.
-/

namespace TaskQueue.Broker.Group

/-- The members of the group have settled only what they took, each hand-out once. -/
structure Sound (g : Group) (length : Nat) : Prop where
  next_le : g.next ≤ length
  pending_lt : ∀ i, g.pending.contains i = true → i < g.next
  redeliver_pending : ∀ i ∈ g.redeliver, g.pending.contains i = true
  nodup : g.redeliver.Nodup

/-- The index was never handed out, or it is pending. -/
def Unsettled (g : Group) (i : Nat) : Prop := g.next ≤ i ∨ g.pending.contains i = true

variable {g g' : Group} {length i j : Nat}

theorem fresh_sound (length : Nat) : Group.fresh.Sound length where
  next_le := Nat.zero_le _
  pending_lt := by intro i hi; simp [fresh] at hi
  redeliver_pending := by intro i hi; simp [fresh] at hi
  nodup := List.nodup_nil

theorem Sound.mono (h : g.Sound length) {length' : Nat} (hle : length ≤ length') :
    g.Sound length' :=
  { h with next_le := Nat.le_trans h.next_le hle }

/-- A new message of the log is unsettled. -/
theorem Sound.unsettled_new (h : g.Sound length) : g.Unsettled length := Or.inl h.next_le

/-! ## Handing out -/

@[simp] theorem next_mark (g : Group) (i : Nat) : (g.mark i).next = g.next := rfl

@[simp] theorem redeliver_mark (g : Group) (i : Nat) : (g.mark i).redeliver = g.redeliver := rfl

@[simp] theorem contains_mark (g : Group) (i j : Nat) :
    (g.mark i).pending.contains j = true ↔ j = i ∨ g.pending.contains j = true :=
  Dict.contains_insert _ _ _ _

/-- **What taking does**: the first index that was given back is handed out, or else the next
one. -/
theorem take_cases (h : g.take length = some (i, g')) :
    (∃ rest, g.redeliver = i :: rest ∧ g' = { g with redeliver := rest }.mark i) ∨
    (g.redeliver = [] ∧ i = g.next ∧ g.next < length ∧
      g' = { g with next := g.next + 1 }.mark g.next) := by
  unfold take at h
  split at h
  · next j rest hr =>
    obtain ⟨rfl, rfl⟩ := Prod.mk.inj (Option.some.inj h)
    exact Or.inl ⟨rest, hr, rfl⟩
  · next hr =>
    split at h
    · next hlt =>
      obtain ⟨rfl, rfl⟩ := Prod.mk.inj (Option.some.inj h)
      exact Or.inr ⟨hr, rfl, hlt, rfl⟩
    · cases h

/-- An index that is handed out is pending. -/
theorem pending_take (h : g.take length = some (i, g')) : g'.pending.contains i = true := by
  rcases take_cases h with ⟨rest, -, rfl⟩ | ⟨-, rfl, -, rfl⟩
  · exact (contains_mark _ _ _).mpr (Or.inl rfl)
  · exact (contains_mark _ _ _).mpr (Or.inl rfl)

/-- What was pending before stays pending. -/
theorem pending_take_of_pending (h : g.take length = some (i, g'))
    (hj : g.pending.contains j = true) : g'.pending.contains j = true := by
  rcases take_cases h with ⟨rest, -, rfl⟩ | ⟨-, rfl, -, rfl⟩
  · exact (contains_mark _ _ _).mpr (Or.inr hj)
  · exact (contains_mark _ _ _).mpr (Or.inr hj)

theorem take_sound (hg : g.Sound length) (h : g.take length = some (i, g')) : g'.Sound length := by
  rcases take_cases h with ⟨rest, hr, rfl⟩ | ⟨hr, rfl, hlt, rfl⟩
  · have hi : g.pending.contains i = true := hg.redeliver_pending i (by simp [hr])
    refine ⟨hg.next_le, ?_, ?_, ?_⟩
    · intro j hj
      rcases (contains_mark _ _ _).mp hj with rfl | hj
      · exact hg.pending_lt j hi
      · exact hg.pending_lt j hj
    · intro j hj
      refine (contains_mark _ _ _).mpr (Or.inr (hg.redeliver_pending j ?_))
      rw [hr]
      exact List.mem_cons_of_mem _ hj
    · have := hg.nodup
      rw [hr] at this
      exact (List.nodup_cons.mp this).2
  · refine ⟨hlt, ?_, ?_, ?_⟩
    · intro j hj
      rcases (contains_mark _ _ _).mp hj with rfl | hj
      · exact Nat.lt_succ_self _
      · exact Nat.lt_succ_of_lt (hg.pending_lt j hj)
    · intro j hj
      exact (contains_mark _ _ _).mpr (Or.inr (hg.redeliver_pending j hj))
    · exact hg.nodup

/-- An index that is handed out is not to be handed out again. -/
theorem not_mem_redeliver_take (hg : g.Sound length) (h : g.take length = some (i, g')) :
    i ∉ g'.redeliver := by
  rcases take_cases h with ⟨rest, hr, rfl⟩ | ⟨hr, rfl, -, rfl⟩
  · have := hg.nodup
    rw [hr] at this
    exact (List.nodup_cons.mp this).1
  · intro hi
    have hlt : g.next < g.next := hg.pending_lt _ (hg.redeliver_pending _ hi)
    exact absurd hlt (Nat.lt_irrefl _)

theorem mem_redeliver_of_take (h : g.take length = some (i, g')) (hj : j ∈ g'.redeliver) :
    j ∈ g.redeliver := by
  rcases take_cases h with ⟨rest, hr, rfl⟩ | ⟨-, -, -, rfl⟩
  · rw [hr]
    exact List.mem_cons_of_mem _ hj
  · exact hj

/-- An index that is pending and not given back is not the one handed out. -/
theorem ne_of_take (hg : g.Sound length) (h : g.take length = some (i, g'))
    (hj : g.pending.contains j = true) (hjr : j ∉ g.redeliver) : j ≠ i := by
  rcases take_cases h with ⟨rest, hr, -⟩ | ⟨-, rfl, -, -⟩
  · rintro rfl
    exact hjr (by simp [hr])
  · have := hg.pending_lt j hj
    omega

/-- **Handing out settles nothing**, and what was settled stays so. -/
theorem unsettled_take (hg : g.Sound length) (h : g.take length = some (i, g')) :
    g'.Unsettled j ↔ g.Unsettled j := by
  unfold Unsettled
  rcases take_cases h with ⟨rest, hr, rfl⟩ | ⟨-, rfl, -, rfl⟩
  · have hi : g.pending.contains i = true := hg.redeliver_pending i (by simp [hr])
    simp only [contains_mark, next_mark]
    constructor
    · rintro (h | rfl | h)
      · exact Or.inl h
      · exact Or.inr hi
      · exact Or.inr h
    · rintro (h | h)
      · exact Or.inl h
      · exact Or.inr (Or.inr h)
  · simp only [contains_mark, next_mark]
    constructor
    · rintro (h | rfl | h)
      · exact Or.inl (Nat.le_of_succ_le h)
      · exact Or.inl (Nat.le_refl _)
      · exact Or.inr h
    · rintro (h | h)
      · rcases Nat.eq_or_lt_of_le h with h | h
        · exact Or.inr (Or.inl h.symm)
        · exact Or.inl h
      · exact Or.inr (Or.inr h)

/-! ## Settling and giving back -/

theorem settle_sound (hg : g.Sound length) (hi : i ∉ g.redeliver) :
    (g.settle i).Sound length where
  next_le := hg.next_le
  pending_lt := by
    intro j hj
    exact hg.pending_lt j ((Dict.contains_erase _ _ _).mp hj).2
  redeliver_pending := by
    intro j hj
    refine (Dict.contains_erase _ _ _).mpr ⟨?_, hg.redeliver_pending j hj⟩
    rintro rfl
    exact hi hj
  nodup := hg.nodup

/-- **Settling a pending index takes that index away** and no other. -/
theorem unsettled_settle (hg : g.Sound length) (hi : g.pending.contains i = true) :
    (g.settle i).Unsettled j ↔ g.Unsettled j ∧ j ≠ i := by
  have hlt := hg.pending_lt i hi
  simp only [Unsettled, settle, Dict.contains_erase]
  constructor
  · rintro (h | ⟨hne, h⟩)
    · exact ⟨Or.inl h, by omega⟩
    · exact ⟨Or.inr h, hne⟩
  · rintro ⟨h | h, hne⟩
    · exact Or.inl h
    · exact Or.inr ⟨hne, h⟩

theorem requeue_sound (hg : g.Sound length) (hi : i ∉ g.redeliver) :
    (g.requeue i).Sound length := by
  unfold requeue
  split
  · next hp =>
    refine ⟨hg.next_le, hg.pending_lt, ?_, ?_⟩
    · intro j hj
      rcases List.mem_append.mp hj with hj | hj
      · exact hg.redeliver_pending j hj
      · rw [List.mem_singleton.mp hj]
        exact hp
    · refine List.nodup_append.mpr ⟨hg.nodup, List.pairwise_singleton _ _, ?_⟩
      intro j hj k hk
      rw [List.mem_singleton.mp hk]
      rintro rfl
      exact hi hj
  · exact hg

/-- Giving an index back settles nothing. -/
theorem unsettled_requeue : (g.requeue i).Unsettled j ↔ g.Unsettled j := by
  unfold requeue
  split
  · exact Iff.rfl
  · exact Iff.rfl

end TaskQueue.Broker.Group
