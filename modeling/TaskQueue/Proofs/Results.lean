/-!
# Steps that may fail, one after the other

A computation of several steps ends well when all of them do, and else with the error of the first
that does not.

Results:

* `bind_eq_ok_iff`, `bind_eq_error_iff`: how a step and what follows it end.
-/

namespace TaskQueue

variable {ε α β : Type} {x : Except ε α} {k : α → Except ε β}

theorem bind_eq_ok_iff {b : β} : (x >>= k) = .ok b ↔ ∃ a, x = .ok a ∧ k a = .ok b := by
  cases x with
  | error e => simp [bind, Except.bind]
  | ok a => simp [bind, Except.bind]

theorem bind_eq_error_iff {err : ε} :
    (x >>= k) = .error err ↔ x = .error err ∨ ∃ a, x = .ok a ∧ k a = .error err := by
  cases x with
  | error e => simp [bind, Except.bind]
  | ok a => simp [bind, Except.bind]

end TaskQueue
