import TaskQueue.Time.Instant

/-!
# Delay queues

Items that wait for their due times. They come out in the order of these; items due at the same
instant come out in the order in which they came in.

The waiting items are kept in that order, so that the earliest is in front.

Out of scope here: the heap of numbered items that may keep them (`Proofs.Promotion.Heap` has it).

Results:

* `mem_push`: what waits after an item came in;
* `takeDue_append`, `le_of_mem_takeDue`, `lt_of_mem_dropDue`: the items that are due leave, and only
  they.
-/

namespace TaskQueue.Promotion

open Time

variable {α : Type}

/-- An item and its due time. -/
structure Waiting (α : Type) where
  due : Instant
  item : α

/-- Waiting items in the order in which they come out. -/
structure DelayQueue (α : Type) where
  waiting : List (Waiting α)
  sorted : waiting.Pairwise fun a b => a.due ≤ b.due

namespace DelayQueue

/-- Nothing waits. -/
def empty : DelayQueue α := ⟨[], .nil⟩

instance : EmptyCollection (DelayQueue α) := ⟨empty⟩

instance : Inhabited (DelayQueue α) := ⟨∅⟩

/-- Puts an item behind those that are not due later. -/
def place (w : Waiting α) : List (Waiting α) → List (Waiting α)
  | [] => [w]
  | v :: vs => if v.due ≤ w.due then v :: place w vs else w :: v :: vs

theorem mem_place {w v : Waiting α} {vs : List (Waiting α)} :
    v ∈ place w vs ↔ v = w ∨ v ∈ vs := by
  induction vs with
  | nil => simp [place]
  | cons u us ih =>
    simp only [place]
    split
    · simp only [List.mem_cons, ih]
      constructor
      · rintro (h | h | h) <;> simp [h]
      · rintro (h | h | h) <;> simp [h]
    · simp only [List.mem_cons]

theorem pairwise_place (w : Waiting α) {vs : List (Waiting α)}
    (h : vs.Pairwise fun a b => a.due ≤ b.due) :
    (place w vs).Pairwise fun a b => a.due ≤ b.due := by
  induction vs with
  | nil => simp [place]
  | cons v vs ih =>
    obtain ⟨hv, hvs⟩ := List.pairwise_cons.1 h
    simp only [place]
    split
    · next hle =>
      refine List.pairwise_cons.2 ⟨fun u hu => ?_, ih hvs⟩
      rcases mem_place.1 hu with rfl | hu
      · exact hle
      · exact hv u hu
    · next hlt =>
      have hwv : w.due ≤ v.due := (Instant.le_total _ _).resolve_right hlt
      refine List.pairwise_cons.2 ⟨fun u hu => ?_, h⟩
      rcases List.mem_cons.1 hu with rfl | hu
      · exact hwv
      · exact Instant.le_trans hwv (hv u hu)

/-- Adds an item. -/
def push (q : DelayQueue α) (due : Instant) (item : α) : DelayQueue α :=
  ⟨place ⟨due, item⟩ q.waiting, pairwise_place _ q.sorted⟩

/-- The earliest due time. -/
def nextDue? (q : DelayQueue α) : Option Instant := q.waiting.head?.map Waiting.due

/-- How many items wait. -/
def size (q : DelayQueue α) : Nat := q.waiting.length

/-- Nothing waits. -/
def isEmpty (q : DelayQueue α) : Bool := q.waiting.isEmpty

/-- The items that are due at `now`, earliest first. -/
def takeDue (q : DelayQueue α) (now : Instant) : List α :=
  (q.waiting.takeWhile fun w => w.due ≤ now).map Waiting.item

/-- What still waits after the items due at `now` have left. -/
def dropDue (q : DelayQueue α) (now : Instant) : DelayQueue α :=
  ⟨q.waiting.dropWhile fun w => w.due ≤ now, q.sorted.sublist (List.dropWhile_sublist _)⟩

/-! ## Lemmas -/

theorem mem_push {q : DelayQueue α} {due : Instant} {item : α} {w : Waiting α} :
    w ∈ (q.push due item).waiting ↔ w = ⟨due, item⟩ ∨ w ∈ q.waiting := mem_place

theorem takeDue_append (q : DelayQueue α) (now : Instant) :
    q.takeDue now ++ (q.dropDue now).waiting.map Waiting.item = q.waiting.map Waiting.item := by
  rw [takeDue, dropDue, ← List.map_append, List.takeWhile_append_dropWhile]

theorem le_of_mem_takeDue {q : DelayQueue α} {now : Instant} {a : α} (h : a ∈ q.takeDue now) :
    ∃ w ∈ q.waiting, w.item = a ∧ w.due ≤ now := by
  obtain ⟨w, hw, rfl⟩ := List.mem_map.1 h
  have hdue := List.all_eq_true.1 (List.all_takeWhile (l := q.waiting)) w hw
  exact ⟨w, (List.takeWhile_sublist _).mem hw, rfl, of_decide_eq_true hdue⟩

theorem lt_of_mem_dropDue {q : DelayQueue α} {now : Instant} {w : Waiting α}
    (h : w ∈ (q.dropDue now).waiting) : now < w.due := by
  have hs := (q.dropDue now).sorted
  cases hd : (q.dropDue now).waiting with
  | nil => simp [hd] at h
  | cons v vs =>
    have hv : now < v.due := by
      have := List.head?_dropWhile_not (fun w : Waiting α => decide (w.due ≤ now)) q.waiting
      simp only [dropDue] at hd
      rw [hd] at this
      exact of_decide_eq_false this
    rw [hd] at h hs
    rcases List.mem_cons.1 h with rfl | h
    · exact hv
    · intro hle
      exact hv (Instant.le_trans ((List.pairwise_cons.1 hs).1 w h) hle)

end DelayQueue

end TaskQueue.Promotion
