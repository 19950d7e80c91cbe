/-!
# Blank characters

Unicode's `White_Space` property, trimming and splitting by it.

Results:

* `isBlank_of_isWhitespace`: every blank that core knows is blank here;
* `words_ne_nil`, `not_isBlank_of_mem_words`: words are not empty and hold no blank.
-/

namespace TaskQueue.Text

/-- Characters with Unicode's `White_Space` property. -/
def isBlank (c : Char) : Bool :=
  let n := c.toNat
  (9 ≤ n && n ≤ 13) || n == 0x20 || n == 0x85 || n == 0xA0 || n == 0x1680 ||
    (0x2000 ≤ n && n ≤ 0x200A) || n == 0x2028 || n == 0x2029 || n == 0x202F || n == 0x205F ||
    n == 0x3000

theorem isBlank_of_isWhitespace {c : Char} (h : c.isWhitespace = true) : isBlank c = true := by
  simp only [Char.isWhitespace, Bool.or_eq_true, decide_eq_true_eq] at h
  rcases h with ((rfl | rfl) | rfl) | rfl <;> decide

/-- Leaves out the blanks at both ends. -/
def trimChars (cs : List Char) : List Char :=
  ((cs.dropWhile isBlank).reverse.dropWhile isBlank).reverse

/-- Leaves out the blanks at both ends. -/
def trim (s : String) : String := String.ofList (trimChars s.toList)

/-- Nothing but blanks. -/
def isAllBlank (s : String) : Bool := s.toList.all isBlank

/-- The pieces between blanks, empty ones included. -/
def segments : List Char → List (List Char)
  | [] => [[]]
  | c :: cs =>
    if isBlank c then [] :: segments cs
    else
      match segments cs with
      | [] => [[c]]
      | w :: ws => (c :: w) :: ws

/-- The longest runs without a blank, in order. -/
def words (cs : List Char) : List (List Char) :=
  (segments cs).filter fun w => !w.isEmpty

theorem words_ne_nil {cs w : List Char} (h : w ∈ words cs) : w ≠ [] := by
  simpa using (List.mem_filter.1 h).2

theorem not_isBlank_of_mem_segments {cs w : List Char} (h : w ∈ segments cs) :
    ∀ c ∈ w, isBlank c = false := by
  induction cs generalizing w with
  | nil => simp [segments] at h; simp [h]
  | cons c cs ih =>
    simp only [segments] at h
    split at h
    · rcases List.mem_cons.1 h with rfl | h
      · simp
      · exact ih h
    · next hc =>
      split at h
      · simp only [List.mem_singleton] at h
        simpa [h] using hc
      · next w' ws hw =>
        rcases List.mem_cons.1 h with rfl | h
        · intro d hd
          rcases List.mem_cons.1 hd with rfl | hd
          · simpa using hc
          · exact ih (hw ▸ List.mem_cons_self) d hd
        · exact ih (hw ▸ List.mem_cons_of_mem _ h)

theorem not_isBlank_of_mem_words {cs w : List Char} (h : w ∈ words cs) :
    ∀ c ∈ w, isBlank c = false :=
  not_isBlank_of_mem_segments (List.mem_filter.1 h).1

end TaskQueue.Text
