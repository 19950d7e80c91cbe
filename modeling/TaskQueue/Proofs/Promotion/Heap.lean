import TaskQueue.Proofs.Promotion.DelayQueue
import TaskQueue.Proofs.Time.Minute

/-!
# A heap of numbered items

A delay queue can be kept as a heap. Every item gets the next number as it comes, and the heap shows
an item that no other precedes: items go by due times, and under one due time by numbers. What is
due leaves one by one, as long as the item in front is due. Nothing else is asked of a heap, so its
items are listed in no particular order here.

Equal items have different numbers, so a history of calls tells which of them is returned when.

Results:

* `front?_eq_some`: what a heap shows;
* `drain_eq`: what is due leaves in order, and the loop comes to its end as the heap gets smaller;
* `Keeps.push`, `Keeps.take`, `exists_keeps`: after every history, the heap and the queue hold what
  came and was not returned;
* `stable_priority_queue`: **a delay queue is a stable priority queue**, and so is the heap.
-/

namespace TaskQueue.Promotion

open Time DelayQueue

variable {α : Type}

/-! ## Items under numbers -/

/-- An item that waits, under a number. -/
structure Numbered (α : Type) extends Waiting α where
  number : Nat

namespace Numbered

variable {a b c : Numbered α}

/-- Items go by due times, and under one due time by numbers. -/
def Precedes (a b : Numbered α) : Prop := a.due < b.due ∨ (a.due = b.due ∧ a.number < b.number)

instance (a b : Numbered α) : Decidable (a.Precedes b) := inferInstanceAs (Decidable (_ ∨ (_ ∧ _)))

theorem precedes_trans (h : a.Precedes b) (h' : b.Precedes c) : a.Precedes c := by
  rcases h with h | ⟨h, hn⟩
  · rcases h' with h' | ⟨h', -⟩
    · exact .inl (Instant.lt_of_le_of_lt (Instant.le_of_lt h) h')
    · exact .inl (h' ▸ h)
  · rcases h' with h' | ⟨h', hn'⟩
    · exact .inl (h ▸ h')
    · exact .inr ⟨h.trans h', Nat.lt_trans hn hn'⟩

theorem not_precedes_self : ¬ a.Precedes a := by
  rintro (h | ⟨-, h⟩)
  · exact h (Instant.le_refl _)
  · exact Nat.lt_irrefl _ h

theorem due_le_of_precedes (h : a.Precedes b) : a.due ≤ b.due := by
  rcases h with h | ⟨h, -⟩
  · exact Instant.le_of_lt h
  · rw [h]
    exact Instant.le_refl _

end Numbered

open Numbered

/-! ## Heaps -/

/-- Takes an item out that no other precedes, if there is any. -/
def front? : List (Numbered α) → Option (Numbered α × List (Numbered α))
  | [] => none
  | e :: es =>
    match front? es with
    | none => some (e, [])
    | some (f, rest) => if e.Precedes f then some (e, f :: rest) else some (f, e :: rest)

theorem front?_eq_none {es : List (Numbered α)} : front? es = none ↔ es = [] := by
  cases es with
  | nil => exact iff_of_true rfl rfl
  | cons e es =>
    refine iff_of_false ?_ (List.cons_ne_nil _ _)
    simp only [front?]
    split
    · exact Option.some_ne_none _
    · split <;> exact Option.some_ne_none _

/-- **What a heap shows**: one of its items, which no other precedes. -/
theorem front?_eq_some {es rest : List (Numbered α)} {e : Numbered α}
    (h : front? es = some (e, rest)) :
    es.Perm (e :: rest) ∧ ∀ f ∈ rest, ¬ f.Precedes e := by
  induction es generalizing e rest with
  | nil => cases h
  | cons a es ih =>
    simp only [front?] at h
    split at h
    · next hnone =>
      cases h
      rw [front?_eq_none.mp hnone]
      exact ⟨.refl _, fun f hf => absurd hf List.not_mem_nil⟩
    · next f rest' hsome =>
      obtain ⟨hperm, hfirst⟩ := ih hsome
      split at h
      · next hbefore =>
        cases h
        refine ⟨hperm.cons _, fun g hg hga => ?_⟩
        rcases List.mem_cons.mp hg with rfl | hg
        · exact not_precedes_self (precedes_trans hga hbefore)
        · exact hfirst g hg (precedes_trans hga hbefore)
      · next hbefore =>
        cases h
        refine ⟨(hperm.cons _).trans (.swap _ _ _), fun g hg => ?_⟩
        rcases List.mem_cons.mp hg with rfl | hg
        · exact hbefore
        · exact hfirst g hg

/-- What leaves a heap at an instant, one by one, and what stays. -/
def drain (now : Instant) (es : List (Numbered α)) : List (Numbered α) × List (Numbered α) :=
  match _h : front? es with
  | none => ([], es)
  | some (e, rest) =>
    if e.due ≤ now then (e :: (drain now rest).1, (drain now rest).2) else ([], es)
termination_by es.length
decreasing_by
  all_goals
    rw [(front?_eq_some _h).1.length_eq]
    exact Nat.lt_succ_self _

/-- An item in front of a sorted list is the one that a heap of its items shows. -/
theorem front?_of_sorted {es entries : List (Numbered α)} {e : Numbered α}
    (sorted : (e :: es).Pairwise Precedes) (hperm : entries.Perm (e :: es)) :
    ∃ rest, front? entries = some (e, rest) ∧ rest.Perm es := by
  cases hf : front? entries with
  | none =>
    rw [front?_eq_none.mp hf] at hperm
    exact absurd hperm.nil_eq (List.cons_ne_nil _ _).symm
  | some p =>
    obtain ⟨f, rest⟩ := p
    obtain ⟨hshown, hfirst⟩ := front?_eq_some hf
    have hboth : (f :: rest).Perm (e :: es) := hshown.symm.trans hperm
    obtain rfl : f = e := by
      rcases List.mem_cons.mp (hboth.mem_iff.mp List.mem_cons_self) with hfe | hfe
      · exact hfe
      rcases List.mem_cons.mp (hboth.mem_iff.mpr List.mem_cons_self) with hef | hef
      · exact hef.symm
      · exact absurd ((List.pairwise_cons.mp sorted).1 f hfe) (hfirst e hef)
    exact ⟨rest, rfl, hboth.cons_inv⟩

/-- **What is due leaves in order**, and all else stays. -/
theorem drain_eq {es entries : List (Numbered α)} (sorted : es.Pairwise Precedes)
    (hperm : entries.Perm es) (now : Instant) :
    (drain now entries).1 = es.takeWhile (fun e => e.due ≤ now) ∧
      (drain now entries).2.Perm (es.dropWhile fun e => e.due ≤ now) := by
  induction es generalizing entries with
  | nil =>
    obtain rfl := hperm.eq_nil
    unfold drain
    exact ⟨rfl, .refl _⟩
  | cons e es ih =>
    obtain ⟨rest, hfront, hrest⟩ := front?_of_sorted sorted hperm
    obtain ⟨htake, hdrop⟩ := ih (List.pairwise_cons.mp sorted).2 hrest
    unfold drain
    split
    · next hnone => exact nomatch hfront.symm.trans hnone
    · next f rest' hsome =>
      cases hfront.symm.trans hsome
      by_cases hdue : e.due ≤ now
      · simp only [List.takeWhile_cons, List.dropWhile_cons, hdue, decide_true, if_true, htake,
          true_and]
        exact hdrop
      · simp only [List.takeWhile_cons, List.dropWhile_cons, hdue, decide_false, if_false,
          Bool.false_eq_true, true_and]
        exact hperm

/-- A heap, and the number that the next item gets. -/
structure Heap (α : Type) where
  entries : List (Numbered α)
  next : Nat

namespace Heap

/-- Nothing waits. -/
def empty : Heap α := ⟨[], 0⟩

/-- Adds an item. -/
def push (h : Heap α) (due : Instant) (item : α) : Heap α :=
  ⟨⟨⟨due, item⟩, h.next⟩ :: h.entries, h.next + 1⟩

/-- The due time of the item in front. -/
def nextDue? (h : Heap α) : Option Instant := (front? h.entries).map fun p => p.1.due

/-- How many items wait. -/
def size (h : Heap α) : Nat := h.entries.length

/-- The items that are due at `now`, earliest first. -/
def takeDue (h : Heap α) (now : Instant) : List (Numbered α) := (drain now h.entries).1

/-- What still waits after the items due at `now` have left. -/
def dropDue (h : Heap α) (now : Instant) : Heap α := ⟨(drain now h.entries).2, h.next⟩

end Heap

/-! ## Histories -/

/-- What is asked of a delay queue. -/
inductive Call (α : Type) where
  | push (due : Instant) (item : α)
  | take (now : Instant)

/-- The queue after a history of calls, the last one first. -/
def queueAfter : List (Call α) → DelayQueue α
  | [] => ∅
  | .push due item :: cs => (queueAfter cs).push due item
  | .take now :: cs => (queueAfter cs).dropDue now

/-- The heap after a history. -/
def heapAfter : List (Call α) → Heap α
  | [] => .empty
  | .push due item :: cs => (heapAfter cs).push due item
  | .take now :: cs => (heapAfter cs).dropDue now

/-- What came in a history, numbered in the order in which it came. -/
def arrivals : List (Call α) → List (Numbered α)
  | [] => []
  | .push due item :: cs => arrivals cs ++ [⟨⟨due, item⟩, (arrivals cs).length⟩]
  | .take _ :: cs => arrivals cs

/-- What was returned in a history. -/
def returned : List (Call α) → List (Numbered α)
  | [] => []
  | .push _ _ :: cs => returned cs
  | .take now :: cs => returned cs ++ (heapAfter cs).takeDue now

variable {cs : List (Call α)}

/-- Items are numbered in the order in which they come. -/
theorem numbers_arrivals (cs : List (Call α)) :
    (arrivals cs).map number = List.range (arrivals cs).length := by
  induction cs with
  | nil => rfl
  | cons c cs ih =>
    cases c with
    | push due item =>
      simp only [arrivals, List.map_append, ih, List.length_append, List.length_singleton,
        List.range_succ]
      rfl
    | take now => exact ih

theorem nodup_arrivals (cs : List (Call α)) : (arrivals cs).Nodup := by
  have hnumbers : ((arrivals cs).map number).Nodup := by
    rw [numbers_arrivals]
    exact List.nodup_range
  exact List.Pairwise.of_map number (fun _ _ => mt (congrArg number)) hnumbers

theorem number_lt {e : Numbered α} (h : e ∈ arrivals cs) : e.number < (arrivals cs).length := by
  rw [← List.mem_range, ← numbers_arrivals]
  exact List.mem_map_of_mem h

/-- **What is held after a history**, in order: what came and was not returned. -/
structure Keeps (cs : List (Call α)) (es : List (Numbered α)) : Prop where
  sorted : es.Pairwise Precedes
  heap : (heapAfter cs).entries.Perm es
  queue : (queueAfter cs).waiting = es.map toWaiting
  accounted : (returned cs ++ es).Perm (arrivals cs)

theorem next_heapAfter (cs : List (Call α)) : (heapAfter cs).next = (arrivals cs).length := by
  induction cs with
  | nil => rfl
  | cons c cs ih =>
    cases c with
    | push due item =>
      simp only [heapAfter, Heap.push, arrivals, ih, List.length_append, List.length_singleton]
    | take now => exact ih

/-- A new item stands behind those that are not due later. -/
theorem place_eq (w : Waiting α) (vs : List (Waiting α)) :
    place w vs =
      vs.takeWhile (fun v => v.due ≤ w.due) ++ w :: vs.dropWhile fun v => v.due ≤ w.due := by
  induction vs with
  | nil => rfl
  | cons v vs ih =>
    unfold place
    by_cases h : v.due ≤ w.due
    · simp only [List.takeWhile_cons, List.dropWhile_cons, h, decide_true, if_true, ih,
        List.cons_append]
    · simp only [List.takeWhile_cons, List.dropWhile_cons, h, decide_false, if_false,
        Bool.false_eq_true, List.nil_append]

theorem Keeps.mem_arrivals {es : List (Numbered α)} (h : Keeps cs es) {e : Numbered α}
    (he : e ∈ es) : e ∈ arrivals cs :=
  h.accounted.mem_iff.mp (List.mem_append_right _ he)

/-- The items that are due by an instant come first. -/
theorem due_first_of_sorted {es : List (Numbered α)} (sorted : es.Pairwise Precedes)
    (now : Instant) :
    es.takeWhile (fun e => e.due ≤ now) = es.filter (fun e => e.due ≤ now) ∧
      es.dropWhile (fun e => e.due ≤ now) = es.filter fun e => !decide (e.due ≤ now) :=
  takeWhile_eq_filter (sorted.imp fun hab hb =>
    decide_eq_true (Instant.le_trans (due_le_of_precedes hab) (of_decide_eq_true hb)))

/-- A new item is numbered behind all that wait, so it comes behind those that are not due later. -/
theorem Keeps.precedes_new {es : List (Numbered α)} (h : Keeps cs es) {e : Numbered α}
    (he : e ∈ es) {due : Instant} (hdue : e.due ≤ due) (item : α) :
    e.Precedes ⟨⟨due, item⟩, (arrivals cs).length⟩ := by
  by_cases heq : e.due = due
  · exact .inr ⟨heq, number_lt (h.mem_arrivals he)⟩
  · exact .inl fun hle => heq (Instant.le_antisymm hdue hle)

theorem Keeps.push {es : List (Numbered α)} (h : Keeps cs es) (due : Instant) (item : α) :
    Keeps (.push due item :: cs)
      (es.takeWhile (fun e => e.due ≤ due) ++
        ⟨⟨due, item⟩, (arrivals cs).length⟩ :: es.dropWhile fun e => e.due ≤ due) := by
  obtain ⟨htake, hdrop⟩ := due_first_of_sorted h.sorted due
  have hparts : (es.takeWhile (fun e => e.due ≤ due) ++
      es.dropWhile fun e => e.due ≤ due).Pairwise Precedes := by
    rw [List.takeWhile_append_dropWhile]
    exact h.sorted
  have hperm : (es.takeWhile (fun e => e.due ≤ due) ++
      ⟨⟨due, item⟩, (arrivals cs).length⟩ :: es.dropWhile fun e => e.due ≤ due).Perm
        (⟨⟨due, item⟩, (arrivals cs).length⟩ :: es) := by
    refine List.perm_middle.trans ?_
    rw [List.takeWhile_append_dropWhile]
  refine ⟨?sorted, ?heap, ?queue, ?accounted⟩
  case sorted =>
    obtain ⟨hfront, hback, hcross⟩ := List.pairwise_append.mp hparts
    refine List.pairwise_append.mpr
      ⟨hfront, List.pairwise_cons.mpr ⟨fun f hf => ?_, hback⟩, fun e he f hf => ?_⟩
    · rw [hdrop] at hf
      have hlate : ¬ f.due ≤ due := by simpa using (List.mem_filter.mp hf).2
      exact .inl hlate
    · rcases List.mem_cons.mp hf with rfl | hf
      · rw [htake] at he
        obtain ⟨he, hle⟩ := List.mem_filter.mp he
        exact h.precedes_new he (of_decide_eq_true hle) item
      · exact hcross e he f hf
  case heap =>
    simp only [heapAfter, Heap.push, next_heapAfter]
    exact (h.heap.cons _).trans hperm.symm
  case queue =>
    simp only [queueAfter, DelayQueue.push, place_eq, h.queue, List.takeWhile_map,
      List.dropWhile_map, List.map_append, List.map_cons]
    rfl
  case accounted =>
    refine (hperm.append_left _).trans (List.perm_middle.trans ?_)
    exact (h.accounted.cons _).trans (List.perm_append_singleton _ _).symm

theorem Keeps.take {es : List (Numbered α)} (h : Keeps cs es) (now : Instant) :
    Keeps (.take now :: cs) (es.dropWhile fun e => e.due ≤ now) := by
  obtain ⟨hout, hrest⟩ := drain_eq h.sorted h.heap now
  refine ⟨h.sorted.sublist (List.dropWhile_sublist _), hrest, ?queue, ?accounted⟩
  case queue =>
    simp only [queueAfter, DelayQueue.dropDue, h.queue, List.dropWhile_map]
    rfl
  case accounted =>
    simp only [returned, Heap.takeDue, hout, List.append_assoc, List.takeWhile_append_dropWhile]
    exact h.accounted

/-- **After every history, the heap and the queue hold what came and was not returned.** -/
theorem exists_keeps (cs : List (Call α)) : ∃ es, Keeps cs es := by
  induction cs with
  | nil => exact ⟨[], .nil, .refl _, rfl, .refl _⟩
  | cons c cs ih =>
    obtain ⟨es, h⟩ := ih
    cases c with
    | push due item => exact ⟨_, h.push due item⟩
    | take now => exact ⟨_, h.take now⟩

/-! ## Answers -/

theorem Keeps.mem_iff {es : List (Numbered α)} (h : Keeps cs es) {e : Numbered α} :
    e ∈ es ↔ e ∈ arrivals cs ∧ e ∉ returned cs := by
  have hnodup := h.accounted.nodup_iff.mpr (nodup_arrivals cs)
  have hall : e ∈ returned cs ++ es ↔ e ∈ arrivals cs := h.accounted.mem_iff
  rw [← hall, List.mem_append]
  constructor
  · exact fun he => ⟨.inr he, fun hr => (List.nodup_append.mp hnodup).2.2 e hr e he rfl⟩
  · exact fun he => he.1.resolve_left he.2

theorem Keeps.takeDue_eq {es : List (Numbered α)} (h : Keeps cs es) (now : Instant) :
    (heapAfter cs).takeDue now = es.filter fun e => e.due ≤ now :=
  (drain_eq h.sorted h.heap now).1.trans (due_first_of_sorted h.sorted now).1

theorem Keeps.nextDue?_eq {es : List (Numbered α)} (h : Keeps cs es) :
    (heapAfter cs).nextDue? = es.head?.map fun e => e.due := by
  unfold Heap.nextDue?
  cases es with
  | nil =>
    rw [h.heap.eq_nil]
    rfl
  | cons e es =>
    obtain ⟨rest, hfront, -⟩ := front?_of_sorted h.sorted h.heap
    rw [hfront]
    rfl

/-- **What a heap answers after a history**, told by what came and what was returned before. -/
structure Stable (cs : List (Call α)) : Prop where
  /-- What came, was not returned and is due leaves. -/
  taken : ∀ now e, e ∈ (heapAfter cs).takeDue now ↔
    e ∈ arrivals cs ∧ e ∉ returned cs ∧ e.due ≤ now
  /-- It leaves by due times, and under one due time as it came; so each item leaves once. -/
  ordered : ∀ now, ((heapAfter cs).takeDue now).Pairwise Precedes
  /-- All else stays. -/
  stays : ∀ now e, e ∈ ((heapAfter cs).dropDue now).entries ↔
    e ∈ arrivals cs ∧ e ∉ returned cs ∧ ¬ e.due ≤ now
  /-- The time shown is the least due time of what was not returned. -/
  shown : ∀ t, (heapAfter cs).nextDue? = some t ↔
    (∃ e ∈ arrivals cs, e ∉ returned cs ∧ e.due = t) ∧
      ∀ e ∈ arrivals cs, e ∉ returned cs → t ≤ e.due
  /-- No time is shown when nothing waits. -/
  bare : (heapAfter cs).nextDue? = none ↔ (heapAfter cs).size = 0
  /-- Once the due items have left, the time shown is later. -/
  later : ∀ now t, ((heapAfter cs).dropDue now).nextDue? = some t → now < t
  /-- Every item is held or was returned. -/
  counted : (heapAfter cs).size + (returned cs).length = (arrivals cs).length

/-- **A sorted queue answers as the heap.** -/
structure Alike (cs : List (Call α)) : Prop where
  takes : ∀ now, (queueAfter cs).takeDue now = ((heapAfter cs).takeDue now).map fun e => e.item
  holds : (queueAfter cs).waiting.Perm ((heapAfter cs).entries.map toWaiting)
  shows : (queueAfter cs).nextDue? = (heapAfter cs).nextDue?
  sizes : (queueAfter cs).size = (heapAfter cs).size

theorem Keeps.shown_iff {es : List (Numbered α)} (h : Keeps cs es) (t : Instant) :
    (heapAfter cs).nextDue? = some t ↔ (∃ e ∈ es, e.due = t) ∧ ∀ e ∈ es, t ≤ e.due := by
  rw [h.nextDue?_eq]
  cases es with
  | nil => simp
  | cons e es =>
    have hfirst : ∀ f ∈ e :: es, e.due ≤ f.due := by
      intro f hf
      rcases List.mem_cons.mp hf with rfl | hf
      · exact Instant.le_refl _
      · exact due_le_of_precedes ((List.pairwise_cons.mp h.sorted).1 f hf)
    simp only [List.head?_cons, Option.map_some, Option.some.injEq]
    constructor
    · rintro rfl
      exact ⟨⟨e, List.mem_cons_self, rfl⟩, hfirst⟩
    · rintro ⟨⟨f, hf, rfl⟩, hleast⟩
      exact Instant.le_antisymm (hfirst f hf) (hleast e List.mem_cons_self)

theorem Keeps.stable {es : List (Numbered α)} (h : Keeps cs es) : Stable cs where
  taken now e := by
    rw [h.takeDue_eq, List.mem_filter, h.mem_iff, decide_eq_true_iff, and_assoc]
  ordered now := by
    rw [h.takeDue_eq]
    exact h.sorted.sublist List.filter_sublist
  stays now e := by
    have hrest := (h.take now).heap
    rw [(due_first_of_sorted h.sorted now).2] at hrest
    rw [← and_assoc, ← h.mem_iff]
    refine hrest.mem_iff.trans (List.mem_filter.trans ?_)
    simp
  shown t := by
    rw [h.shown_iff]
    simp only [h.mem_iff, and_imp, and_assoc]
  bare := by
    rw [h.nextDue?_eq, Heap.size, h.heap.length_eq]
    simp
  later now t ht := by
    obtain ⟨⟨e, he, rfl⟩, -⟩ := ((h.take now).shown_iff t).mp ht
    rw [(due_first_of_sorted h.sorted now).2] at he
    have hlate : ¬ e.due ≤ now := by simpa using (List.mem_filter.mp he).2
    exact hlate
  counted := by
    rw [← h.accounted.length_eq, List.length_append, Heap.size, h.heap.length_eq, Nat.add_comm]

theorem Keeps.alike {es : List (Numbered α)} (h : Keeps cs es) : Alike cs where
  takes now := by
    rw [h.takeDue_eq, takeDue_eq_filter, h.queue, List.filter_map, List.map_map]
    rfl
  holds := h.queue ▸ (h.heap.map _).symm
  shows := by
    rw [h.nextDue?_eq, DelayQueue.nextDue?, h.queue, List.head?_map, Option.map_map]
    rfl
  sizes := by
    rw [DelayQueue.size, h.queue, List.length_map, Heap.size, h.heap.length_eq]

/-- **A delay queue is a stable priority queue**, however it is called: at every instant the items
that are due leave by due times, and those of one due time in the order in which they came. -/
theorem stable_priority_queue (cs : List (Call α)) : Stable cs ∧ Alike cs := by
  obtain ⟨es, h⟩ := exists_keeps cs
  exact ⟨h.stable, h.alike⟩

end TaskQueue.Promotion
