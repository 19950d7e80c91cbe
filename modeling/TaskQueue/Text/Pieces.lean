/-!
# Cutting text at marks

Results:

* `intercalate_pieces`: the pieces between marks, with the marks put back, are the text;
* `not_mem_pieces`: no piece holds the mark.
-/

namespace TaskQueue.Text

/-- What stands before the first character in `stops`, and the rest. -/
def before (stops : List Char) (cs : List Char) : List Char × List Char :=
  cs.span (!stops.contains ·)

/-- What stands before the first `mark` and after it. -/
def cut? (mark : Char) (cs : List Char) : Option (List Char × List Char) :=
  match before [mark] cs with
  | (front, _ :: back) => some (front, back)
  | (_, []) => none

/-- What stands between marks: one piece more than there are marks. -/
def pieces (mark : Char) : List Char → List (List Char)
  | [] => [[]]
  | c :: cs =>
    if c = mark then [] :: pieces mark cs
    else
      match pieces mark cs with
      | p :: ps => (c :: p) :: ps
      | [] => [[c]]

theorem pieces_ne_nil (mark : Char) (cs : List Char) : pieces mark cs ≠ [] := by
  cases cs with
  | nil => exact List.cons_ne_nil _ _
  | cons c cs =>
    simp only [pieces]
    split
    · exact List.cons_ne_nil _ _
    · split <;> exact List.cons_ne_nil _ _

theorem intercalate_pieces (mark : Char) (cs : List Char) :
    [mark].intercalate (pieces mark cs) = cs := by
  induction cs with
  | nil => rfl
  | cons c cs ih =>
    simp only [pieces]
    cases h : pieces mark cs with
    | nil => exact absurd h (pieces_ne_nil mark cs)
    | cons p ps =>
      rw [h] at ih
      split
      · next hc => simpa [List.intercalate, List.intersperse, hc] using ih
      · cases ps <;> simpa [List.intercalate, List.intersperse] using ih

theorem not_mem_pieces {mark : Char} {cs p : List Char} (h : p ∈ pieces mark cs) : mark ∉ p := by
  induction cs generalizing p with
  | nil => simp_all [pieces]
  | cons c cs ih =>
    simp only [pieces] at h
    split at h
    · rcases List.mem_cons.1 h with rfl | h
      · exact List.not_mem_nil
      · exact ih h
    · next hc =>
      cases hp : pieces mark cs with
      | nil => exact absurd hp (pieces_ne_nil mark cs)
      | cons q qs =>
        rw [hp] at h ih
        rcases List.mem_cons.1 h with rfl | h
        · have := ih List.mem_cons_self
          simp_all [eq_comm]
        · exact ih (List.mem_cons_of_mem _ h)

end TaskQueue.Text
