import Mathlib.Data.List.Infix
import TaskQueue.Proofs.Broker.InOrder

/-!
# Who holds an entry

The consumers of a group hold what was handed out to them until they resolve it: they settle it, or
give it back. Here no entry is ever resolved more often than it was handed out (`ResolvedOnce`), as
when each hand-out is resolved at most once by whoever got it. Then an entry is held by nobody else
while it is held, and its pending mark says so: an index is pending as long as it is held or waits
to be handed out again.

Results:

* `size_take`, `size_resolve`: the number of pending indices after each operation;
* `holding`: **an index is held exactly when it is pending and does not wait**, and at most once;
* `handOuts_eq`: a pending index is marked with the number of its hand-outs;
* `handedOutAgain_append`: what was given back is handed out again in that order, or still waits;
* `handed_out_exclusively`: all of these, as `Exclusive` says.
-/

namespace TaskQueue.Broker

namespace Group

variable {g g' : Group} {length i j : Nat} {requeue : Bool}

/-! ## The pending indices -/

theorem handOuts_mark (g : Group) (i j : Nat) :
    (g.mark i).handOuts j = if j = i then g.handOuts i + 1 else g.handOuts j := by
  unfold mark handOuts
  rw [Dict.get?_insert]
  split
  · rfl
  · rfl

theorem handOuts_eq_zero (h : g.pending.contains i = false) : g.handOuts i = 0 := by
  unfold handOuts
  rw [Option.not_isSome_iff_eq_none.mp (Bool.eq_false_iff.mp h)]
  rfl

/-- What is handed out is marked once more, and nothing else is. -/
theorem handOuts_take (h : g.take length = some (i, g')) (j : Nat) :
    g'.handOuts j = if j = i then g.handOuts i + 1 else g.handOuts j := by
  rcases take_cases h with ⟨rest, -, rfl⟩ | ⟨-, rfl, -, rfl⟩
  · exact handOuts_mark _ i j
  · exact handOuts_mark _ g.next j

theorem handOuts_resolve (g : Group) (i j : Nat) (requeue : Bool) :
    (g.resolve i requeue).handOuts j = if requeue = false ∧ j = i then 0 else g.handOuts j := by
  unfold resolve Group.requeue
  cases requeue with
  | false =>
    unfold handOuts settle
    simp only [Bool.false_eq_true, if_false, Dict.get?_erase, true_and]
    split
    · rfl
    · rfl
  | true =>
    simp only [if_true, reduceCtorEq, false_and, if_false]
    split
    · rfl
    · rfl

/-- **A hand-out is one more that is pending, or one less that waits.** -/
theorem size_take (hw : g.Within length) (ht : g.Tidy) (h : g.take length = some (i, g')) :
    g'.pending.size + g.redeliver.length = g.pending.size + g'.redeliver.length + 1 := by
  rcases take_cases h with ⟨rest, hr, rfl⟩ | ⟨hr, rfl, -, rfl⟩
  · have hi : g.pending.contains i = true := ht.pending i (by simp [hr])
    have hs : ({ g with redeliver := rest }.mark i).pending.size = g.pending.size := by
      refine (Dict.size_insert _ _ _).trans ?_
      rw [if_pos hi]
    rw [hs, hr, redeliver_mark, List.length_cons]
    exact (Nat.add_assoc _ _ _).symm
  · have hi : ¬ g.pending.contains g.next = true := fun hi =>
      absurd (hw.pending_lt g.next hi) (Nat.lt_irrefl _)
    have hs : ({ g with next := g.next + 1 }.mark g.next).pending.size = g.pending.size + 1 := by
      refine (Dict.size_insert _ _ _).trans ?_
      rw [if_neg hi]
    rw [hs, redeliver_mark]
    exact Nat.add_right_comm _ _ _

theorem contains_take (h : g.take length = some (i, g')) :
    g'.pending.contains j = true ↔ j = i ∨ g.pending.contains j = true := by
  rcases take_cases h with ⟨rest, -, rfl⟩ | ⟨-, rfl, -, rfl⟩
  · exact contains_mark _ i j
  · exact contains_mark _ g.next j

theorem mem_redeliver_take (hs : g.Sound length) (h : g.take length = some (i, g')) :
    j ∈ g'.redeliver ↔ j ≠ i ∧ j ∈ g.redeliver := by
  constructor
  · intro hj
    exact ⟨fun he => not_mem_redeliver_take hs h (he ▸ hj), mem_redeliver_of_take h hj⟩
  · rintro ⟨hne, hj⟩
    rcases take_cases h with ⟨rest, hr, rfl⟩ | ⟨-, -, -, rfl⟩
    · rw [hr] at hj
      exact (List.mem_cons.mp hj).resolve_left hne
    · exact hj

theorem pending_resolve_iff : (g.resolve i requeue).pending.contains j = true ↔
    g.pending.contains j = true ∧ ¬ (requeue = false ∧ j = i) := by
  unfold resolve Group.requeue
  cases requeue with
  | false => simp [settle, and_comm]
  | true =>
    simp only [if_true, reduceCtorEq, false_and, not_false_eq_true, and_true]
    split
    · exact Iff.rfl
    · exact Iff.rfl

theorem mem_redeliver_resolve (h : g.pending.contains i = true) :
    j ∈ (g.resolve i requeue).redeliver ↔ j ∈ g.redeliver ∨ (requeue = true ∧ j = i) := by
  rw [redeliver_resolve]
  cases requeue with
  | false => simp
  | true => simp [h]

/-- **A pending index that is resolved** is one less that is pending, or one more that waits. -/
theorem size_resolve (h : g.pending.contains i = true) (requeue : Bool) :
    (g.resolve i requeue).pending.size + g.redeliver.length + 1 =
      g.pending.size + (g.resolve i requeue).redeliver.length := by
  cases requeue with
  | false =>
    have hs : (g.resolve i false).pending.size + 1 = g.pending.size := Dict.size_erase h
    rw [redeliver_resolve, if_neg fun hn => Bool.false_ne_true hn.1, ← hs]
    exact Nat.add_right_comm _ _ _
  | true =>
    have hs : (g.resolve i true).pending = g.pending := by
      unfold resolve Group.requeue
      simp only [if_true, h]
    rw [redeliver_resolve, if_pos ⟨rfl, h⟩, hs, List.length_append, List.length_singleton]
    exact Nat.add_assoc _ _ _

end Group

theorem State.pending_eq (b : State) (t g : String) :
    b.pending t g = (b.groupOf t g).pending.size := by
  unfold State.pending State.groupOf
  cases b.group? t g with
  | none => rfl
  | some g => rfl

namespace Call

open State

variable {t g : String} {h : List Call} {c : Call} {i : Nat} {d : Delivery}

/-! ## What is held -/

/-- The hand-outs to a group that were not resolved, the last one first. -/
def held (t g : String) : List Call → List Delivery
  | [] => []
  | c :: h =>
    match c.resolves? t g with
    | some (i, _) => (held t g h).eraseP (·.position = position t i)
    | none => (c.handsOut? (after h) t g).toList ++ held t g h

/-- The positions that are held, the last one first. -/
def heldPositions (t g : String) (h : List Call) : List Position :=
  (held t g h).map Delivery.position

theorem heldPositions_resolved {requeue : Bool} (hc : c.resolves? t g = some (i, requeue)) :
    heldPositions t g (c :: h) = (heldPositions t g h).erase (position t i) := by
  unfold heldPositions
  rw [held, hc]
  dsimp only
  induction held t g h with
  | nil => rfl
  | cons d ds ih =>
    by_cases hd : d.position = position t i
    · rw [List.eraseP_cons_of_pos (by simp [hd]), List.map_cons, hd, List.erase_cons_head]
    · rw [List.eraseP_cons_of_neg (by simp [hd]), List.map_cons, List.map_cons, ih,
        List.erase_cons_tail (by simpa using hd)]

theorem heldPositions_unresolved (hc : c.resolves? t g = none) :
    heldPositions t g (c :: h) =
      ((c.handsOut? (after h) t g).map Delivery.position).toList ++ heldPositions t g h := by
  unfold heldPositions
  rw [held, hc]
  cases c.handsOut? (after h) t g with
  | none => rfl
  | some d => rfl

theorem ResolvedOnce.tail (hr : ResolvedOnce t g (c :: h)) : ResolvedOnce t g h :=
  fun h' hs => hr h' (hs.trans (List.suffix_cons c h))

/-- Each hand-out is held or resolved. -/
theorem count_heldPositions (hr : ResolvedOnce t g h) (i : Nat) :
    (heldPositions t g h).count (position t i) + (resolved t g h).count i =
      (handedOut t g h).count (position t i) := by
  induction h with
  | nil => rfl
  | cons c h ih =>
    have ih := ih hr.tail
    have hle := hr (c :: h) (List.suffix_refl _) i
    rw [handedOut, List.count_append]
    cases hc : c.resolves? t g with
    | none =>
      rw [heldPositions_unresolved hc, List.count_append, resolved, List.filterMap_cons, hc,
        ← resolved]
      dsimp only [Option.map_none]
      omega
    | some r =>
      obtain ⟨j, requeue⟩ := r
      have hout : c.handsOut? (after h) t g = none := (call_resolves hc).1
      have hres : (resolved t g (c :: h)).count i =
          (resolved t g h).count i + if j = i then 1 else 0 := by
        rw [resolved, List.filterMap_cons, hc, ← resolved]
        simp only [Option.map_some, List.count_cons, beq_iff_eq]
      rw [hres, handedOut, List.count_append, hout] at hle
      rw [heldPositions_resolved hc, List.count_erase, hres, hout]
      have hj : (position t j == position t i) = true ↔ j = i := by
        rw [beq_iff_eq]
        exact ⟨position_injective, congrArg (position t)⟩
      simp only [hj, Option.map_none, Option.toList_none, List.count_nil] at hle ⊢
      split at hle
      · next he =>
        rw [if_pos he]
        omega
      · next he =>
        rw [if_neg he]
        omega

/-- What is resolved was held. -/
theorem mem_heldPositions_of_resolves (hr : ResolvedOnce t g (c :: h)) {requeue : Bool}
    (hc : c.resolves? t g = some (i, requeue)) : position t i ∈ heldPositions t g h := by
  have hcount := count_heldPositions hr.tail i
  have hle := hr (c :: h) (List.suffix_refl _) i
  have hout : c.handsOut? (after h) t g = none := (call_resolves hc).1
  have hres : (resolved t g (c :: h)).count i = (resolved t g h).count i + 1 := by
    rw [resolved, List.filterMap_cons, hc]
    exact List.count_cons_self
  rw [hres, handedOut, hout] at hle
  have hle' : (resolved t g h).count i + 1 ≤ (handedOut t g h).count (position t i) := hle
  exact List.count_pos_iff.mp (by omega)

/-- **What the pending indices say.** -/
structure Holding (t g : String) (h : List Call) : Prop where
  /-- No entry is held twice. -/
  nodup : (heldPositions t g h).Nodup
  /-- The entries that are held are those that are pending and do not wait. -/
  mem_iff : ∀ i, position t i ∈ heldPositions t g h ↔
    ((after h).groupOf t g).pending.contains i = true ∧ i ∉ ((after h).groupOf t g).redeliver
  size : ((after h).groupOf t g).pending.size =
    (heldPositions t g h).length + ((after h).groupOf t g).redeliver.length

/-- A call keeps to what the pending indices say, when it resolves only what is held. -/
theorem Holding.next (hh : Holding t g h) (hr : ResolvedOnce t g (c :: h)) :
    Holding t g (c :: h) := by
  have hw := within t g h
  have ht := alwaysTidy_of_resolvedOnce hr.tail h (List.suffix_refl _)
  cases effect (after h) t g c with
  | idle hc hd hg =>
    have hp : heldPositions t g (c :: h) = heldPositions t g h := by
      rw [heldPositions_unresolved hc, hd]
      rfl
    rw [← after_cons] at hg
    exact ⟨hp ▸ hh.nodup, hp ▸ hg ▸ hh.mem_iff, hp ▸ hg ▸ hh.size⟩
  | resolved i requeue hc hd hg =>
    rw [← after_cons] at hg
    have hmem := mem_heldPositions_of_resolves hr hc
    obtain ⟨hpending, hwaits⟩ := (hh.mem_iff i).mp hmem
    have hp := heldPositions_resolved (h := h) hc
    refine ⟨hp ▸ hh.nodup.erase _, fun j => ?_, ?_⟩
    · rw [hp, hh.nodup.mem_erase_iff, hh.mem_iff j, hg, Group.pending_resolve_iff,
        Group.mem_redeliver_resolve hpending]
      have hj : position t j ≠ position t i ↔ j ≠ i :=
        not_congr ⟨position_injective, congrArg (position t)⟩
      rw [hj]
      cases requeue with
      | false => simp only [true_and, Bool.false_eq_true, false_and, or_false]; tauto
      | true => simp only [reduceCtorEq, false_and, not_false_eq_true, true_and]; tauto
    · have hsize := Group.size_resolve hpending requeue
      have hlen := List.length_erase_of_mem hmem
      have hpos := List.length_pos_of_mem hmem
      have hold := hh.size
      rw [hp, hg, hlen]
      omega
  | handed i d hc hd hpos htake =>
    rw [← after_cons] at htake
    have hs := Group.sound_iff.mpr ⟨hw, ht⟩
    have hp : heldPositions t g (c :: h) = position t i :: heldPositions t g h := by
      rw [heldPositions_unresolved hc, hd, Option.map_some, hpos]
      rfl
    -- what is taken waited or is new, so nobody holds it
    have hnew : position t i ∉ heldPositions t g h := fun hi =>
      have ⟨hpending, hwaits⟩ := (hh.mem_iff i).mp hi
      Group.ne_of_take hs htake hpending hwaits rfl
    refine ⟨hp ▸ List.nodup_cons.mpr ⟨hnew, hh.nodup⟩, fun j => ?_, ?_⟩
    · have hj : position t j = position t i ↔ j = i := ⟨position_injective, congrArg (position t)⟩
      rw [hp, List.mem_cons, hj, hh.mem_iff j, Group.contains_take htake,
        Group.mem_redeliver_take hs htake]
      constructor
      · rintro (rfl | ⟨hpending, hwaits⟩)
        · exact ⟨Or.inl rfl, fun hn => hn.1 rfl⟩
        · exact ⟨Or.inr hpending, fun hn => hwaits hn.2⟩
      · rintro ⟨rfl | hpending, hwaits⟩
        · exact Or.inl rfl
        · by_cases hji : j = i
          · exact Or.inl hji
          · exact Or.inr ⟨hpending, fun hn => hwaits ⟨hji, hn⟩⟩
    · have hsize := Group.size_take hw ht htake
      have hold := hh.size
      rw [hp, List.length_cons]
      omega

/-- **An entry is held exactly when its index is pending and does not wait**, and by one consumer at
most. -/
theorem holding (hr : ResolvedOnce t g h) : Holding t g h := by
  induction h with
  | nil => exact ⟨List.nodup_nil, fun i => ⟨nofun, nofun⟩, rfl⟩
  | cons c h ih => exact (ih hr.tail).next hr

/-! ## How often an entry was handed out -/

/-- An index that is taken is marked with the number of its hand-outs. -/
theorem handOuts_of_take {length : Nat} {gr : Group}
    (ht : ((after h).groupOf t g).Tidy)
    (hpending : ((after h).groupOf t g).pending.contains i = true →
      ((after h).groupOf t g).handOuts i = .ofNat ((handedOut t g h).count (position t i)))
    (htake : ((after h).groupOf t g).take length = some (i, gr)) :
    ((after h).groupOf t g).handOuts i = .ofNat ((handedOut t g h).count (position t i)) := by
  rcases Group.take_cases htake with ⟨rest, hr, -⟩ | ⟨-, rfl, -, -⟩
  · exact hpending (ht.pending i (by simp [hr]))
  · have hnew : position t ((after h).groupOf t g).next ∉ handedOut t g h := fun hi =>
      Nat.lt_irrefl _ (mem_handedOut.mp hi)
    have hnone : ((after h).groupOf t g).pending.contains ((after h).groupOf t g).next = false := by
      by_contra hp
      exact Nat.lt_irrefl _ ((within t g h).pending_lt _ (Bool.of_not_eq_false hp))
    rw [Group.handOuts_eq_zero hnone, List.count_eq_zero_of_not_mem hnew]
    rfl

/-- **A pending index is marked with the number of its hand-outs**, as long as each was resolved at
most once. -/
theorem handOuts_eq (hr : ResolvedOnce t g h)
    (hi : ((after h).groupOf t g).pending.contains i = true) :
    ((after h).groupOf t g).handOuts i = .ofNat ((handedOut t g h).count (position t i)) := by
  induction h generalizing i with
  | nil => cases hi
  | cons c h ih =>
    have ht := alwaysTidy_of_resolvedOnce hr.tail h (List.suffix_refl _)
    have ih {i : Nat} := ih (i := i) hr.tail
    rw [handedOut, List.count_append]
    rw [after_cons] at hi ⊢
    cases effect (after h) t g c with
    | idle _ hd hg =>
      rw [hg] at hi ⊢
      rw [hd, ih hi]
      exact congrArg UInt32.ofNat (Nat.zero_add _).symm
    | resolved j requeue _ hd hg =>
      rw [hg] at hi ⊢
      have hkept := Group.pending_resolve_iff.mp hi
      rw [hd, Group.handOuts_resolve, if_neg hkept.2, ih hkept.1]
      exact congrArg UInt32.ofNat (Nat.zero_add _).symm
    | handed j d _ hd hp htake =>
      rw [hd, Option.map_some, Option.toList_some, hp, Group.handOuts_take htake]
      by_cases hj : i = j
      · subst hj
        rw [if_pos rfl, handOuts_of_take ht ih htake, List.count_singleton_self, Nat.add_comm 1]
        exact (UInt32.ofNat_add _ 1).symm
      · have hpj : position t j ≠ position t i := fun he => hj (position_injective he).symm
        have hold := ((Group.contains_take htake).mp hi).resolve_left hj
        rw [if_neg hj, ih hold, List.count_singleton]
        simp [hpj]

/-! ## What was given back -/

/-- The index that a call gives back. -/
def givesBack? (t g : String) (c : Call) : Option Nat :=
  match c.resolves? t g with
  | some (i, true) => some i
  | _ => none

/-- The indices that were given back, in the order of the calls. -/
def requeued (t g : String) : List Call → List Nat
  | [] => []
  | c :: h => requeued t g h ++ (c.givesBack? t g).toList

/-- What was handed out though it had been handed out before, the first position first. -/
def handedOutAgain (t g : String) : List Call → List Position
  | [] => []
  | c :: h =>
    handedOutAgain t g h ++
      ((c.handsOut? (after h) t g).map Delivery.position).toList.filter (· ∈ handedOut t g h)

/-- **What was given back is handed out again in that order**; what was not yet, waits. -/
theorem handedOutAgain_append (hr : ResolvedOnce t g h) :
    handedOutAgain t g h ++ ((after h).groupOf t g).redeliver.map (position t) =
      (requeued t g h).map (position t) := by
  induction h with
  | nil => rfl
  | cons c h ih =>
    have ih := ih hr.tail
    rw [handedOutAgain, requeued, List.map_append, ← ih]
    unfold givesBack?
    cases effect (after h) t g c with
    | idle hc hd hg =>
      rw [hc, hd, after_cons, hg]
      simp
    | resolved i requeue hc hd hg =>
      have hpending := (((holding hr.tail).mem_iff i).mp (mem_heldPositions_of_resolves hr hc)).1
      rw [hc, hd, after_cons, hg, Group.redeliver_resolve]
      cases requeue with
      | false => simp
      | true => simp [hpending]
    | handed i d hc hd hp htake =>
      rw [hc, hd, Option.map_some, hp]
      rcases Group.take_cases htake with ⟨rest, hr, hg⟩ | ⟨hr, rfl, -, hg⟩
      · have hold : position t i ∈ handedOut t g h :=
          mem_handedOut.mpr ((within t g h).redeliver_lt i (by simp [hr]))
        rw [after_cons, hg, hr]
        simp [hold]
      · have hnew : position t ((after h).groupOf t g).next ∉ handedOut t g h := fun hi =>
          Nat.lt_irrefl _ (mem_handedOut.mp hi)
        rw [after_cons, hg, hr]
        simp [hnew]

/-- Nothing waits when an entry is handed out for the first time. -/
theorem nothing_waits_of_new (hd : c.handsOut? (after h) t g = some d)
    (hnew : d.position ∉ handedOut t g h) : ((after h).groupOf t g).redeliver = [] := by
  obtain ⟨i, gr, ht⟩ := exists_taken hd
  rcases Group.take_cases ht.taken with ⟨rest, hr, -⟩ | ⟨hr, -, -, -⟩
  · rw [ht.position] at hnew
    exact absurd (mem_handedOut.mpr ((within t g h).redeliver_lt i (by simp [hr]))) hnew
  · exact hr

/-! ## The result -/

/-- **How a group keeps its consumers apart** in some calls. -/
structure Exclusive (t g : String) (h : List Call) : Prop where
  /-- No entry has two hand-outs that are not resolved. -/
  alone : (heldPositions t g h).Nodup
  /-- What is pending is held or waits to be handed out again. -/
  pending : (after h).pending t g =
    (held t g h).length + ((after h).groupOf t g).redeliver.length
  /-- What was given back is handed out again in the order in which it was given back, and what was
  not yet handed out again waits in that order. -/
  again : handedOutAgain t g h ++ ((after h).groupOf t g).redeliver.map (position t) =
    (requeued t g h).map (position t)
  /-- An entry is handed out for the first time only when all that was given back has been handed
  out again. -/
  before_new : ∀ c d, Call.handsOut? (after h) t g c = some d → d.position ∉ handedOut t g h →
    handedOutAgain t g h = (requeued t g h).map (position t)
  /-- A delivery tells how often its entry has been handed out, in 32 bits. -/
  count : ∀ c d, Call.handsOut? (after h) t g c = some d →
    d.count = .ofNat ((handedOut t g (c :: h)).count d.position)

/-- **A group hands each entry to one consumer at a time**, as long as each hand-out is resolved at
most once: counted by entries, as nobody can tell two hand-outs of one entry apart by what they
resolve. -/
theorem handed_out_exclusively (t g : String) (h : List Call) (hr : ResolvedOnce t g h) :
    Exclusive t g h := by
  have hagain := handedOutAgain_append hr
  refine ⟨(holding hr).nodup, ?_, hagain, fun c d hd hnew => ?_, fun c d hd => ?_⟩
  · rw [pending_eq, (holding hr).size, heldPositions, List.length_map]
  · rw [nothing_waits_of_new hd hnew] at hagain
    rw [← hagain]
    exact (List.append_nil _).symm
  · have ht := alwaysTidy_of_resolvedOnce hr h (List.suffix_refl _)
    obtain ⟨i, gr, htaken⟩ := exists_taken hd
    have hmark := handOuts_of_take ht (handOuts_eq hr) htaken.taken
    rw [handedOut, hd, htaken.count, htaken.position, Group.handOuts_take htaken.taken, if_pos rfl,
      hmark, Option.map_some, htaken.position, Option.toList_some, List.singleton_append,
      List.count_cons_self]
    exact (UInt32.ofNat_add _ 1).symm

/-- Two consumers: the first entry is given back by the one and then goes to the other, before the
second entry goes to anyone. -/
def sharedWork : List Call :=
  [.receive "tasks" "workers", .ack "tasks" "workers" (position "tasks" 0),
    .receive "tasks" "workers", .publish "tasks" ⟨"mail", [], ∅⟩,
    .reject "tasks" "workers" (position "tasks" 0) true] ++ firstHandedOut

/-- The first entry was handed out twice before it was settled; only the second is still held. -/
theorem sharedWork_exclusive :
    ResolvedOnce "tasks" "workers" sharedWork ∧ Exclusive "tasks" "workers" sharedWork ∧
      (after sharedWork).pending "tasks" "workers" = 1 ∧
      handedOutAgain "tasks" "workers" sharedWork = [position "tasks" 0] := by
  have hall : ∀ h' ∈ sharedWork.tails, ∀ i ∈ resolved "tasks" "workers" h',
      (resolved "tasks" "workers" h').count i ≤
        (handedOut "tasks" "workers" h').count (position "tasks" i) := by decide
  have hr : ResolvedOnce "tasks" "workers" sharedWork := by
    intro h' hs i
    by_cases hi : i ∈ resolved "tasks" "workers" h'
    · exact hall h' ((List.mem_tails _ _).mpr hs) i hi
    · rw [List.count_eq_zero_of_not_mem hi]
      exact Nat.zero_le _
  exact ⟨hr, handed_out_exclusively "tasks" "workers" sharedWork hr, by decide, by decide⟩

end Call

end TaskQueue.Broker
