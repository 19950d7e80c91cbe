import TaskQueue.Dict

/-!
# Consumer groups

What a group of consumers has got to in a topic. Messages are known by their index in the log of the
topic. A group hands out every index once as new, in order. A handed out index is pending until it
is settled; an index that is given back is handed out again before any new one.

Out of scope: which consumer of the group an index went to. Settling does not ask for it.

Results:

* `take_eq_none_iff`: nothing can be handed out exactly when nothing is waiting.
-/

namespace TaskQueue.Broker

/-- What a group of consumers has got to. -/
structure Group where
  /-- The first index that was never handed out. -/
  next : Nat
  /-- Indices that were given back, in the order in which they are handed out again. -/
  redeliver : List Nat
  /-- Indices that were handed out and not settled, with how often they were. -/
  pending : Dict Nat UInt32
  deriving DecidableEq

namespace Group

/-- Nothing was handed out. -/
def fresh : Group := ⟨0, [], ∅⟩

instance : Inhabited Group := ⟨fresh⟩

/-- How often an index has been handed out since it was last settled, in 32 bits. -/
def handOuts (g : Group) (i : Nat) : UInt32 := (g.pending.get? i).getD 0

/-- Counts an index as handed out once more. -/
def mark (g : Group) (i : Nat) : Group :=
  { g with pending := g.pending.insert i (g.handOuts i + 1) }

/-- Hands out an index from a log of the given length: one that was given back, or else the next
one. -/
def take (g : Group) (length : Nat) : Option (Nat × Group) :=
  match g.redeliver with
  | i :: rest => some (i, { g with redeliver := rest }.mark i)
  | [] => if g.next < length then some (g.next, { g with next := g.next + 1 }.mark g.next) else none

/-- An index is done with. -/
def settle (g : Group) (i : Nat) : Group := { g with pending := g.pending.erase i }

/-- Gives an index back, if it is pending. -/
def requeue (g : Group) (i : Nat) : Group :=
  if g.pending.contains i then { g with redeliver := g.redeliver ++ [i] } else g

/-- How many hand-outs wait in a log of the given length. -/
def backlog (g : Group) (length : Nat) : Nat := length - g.next + g.redeliver.length

theorem take_eq_none_iff (g : Group) (length : Nat) :
    g.take length = none ↔ g.backlog length = 0 := by
  cases h : g.redeliver with
  | nil =>
    simp only [take, h, backlog, List.length_nil, ite_eq_right_iff, reduceCtorEq, imp_false]
    omega
  | cons i rest =>
    simp [take, h, backlog]

end Group

end TaskQueue.Broker
