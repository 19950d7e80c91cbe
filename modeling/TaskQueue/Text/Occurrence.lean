/-!
# Occurrence of a text in another

Results:

* `occursIn_iff`: a text occurs in another exactly when it is an infix of it.
-/

namespace TaskQueue.Text

/-- Somewhere in the second list the first one stands. -/
def occursIn (pattern : List Char) : List Char → Bool
  | [] => pattern.isEmpty
  | c :: cs => pattern.isPrefixOf (c :: cs) || occursIn pattern cs

theorem occursIn_iff {pattern cs : List Char} : occursIn pattern cs = true ↔ pattern <:+: cs := by
  induction cs with
  | nil => simp [occursIn]
  | cons c cs ih =>
    simp only [occursIn, Bool.or_eq_true, ih, List.isPrefixOf_iff_prefix, List.infix_cons_iff]

end TaskQueue.Text
