import Mathlib.Data.List.TakeWhile
import TaskQueue.Text.Blank
import TaskQueue.Text.Numeral

/-!
# Words and numerals as grammars

Relations say what a text consists of, apart from the functions that read it. `Splits` takes a
text apart into words and the blanks around them, and `Trims` into the blanks at both ends and what
is between; `Decimal` gives a row of digits its value from the last digit, and `Numeral` allows a
plus sign in front. The readers decide these relations.

Results:

* `words_eq_iff`, `trims_iff`: a text splits into its words, and is trimmed, in one way;
* `digits?_eq_some_iff`, `natural?_eq_some_iff`, `natural?_eq_none_iff`: what numerals stand for,
  and which ones are refused.
-/

namespace TaskQueue.Text

/-! ## Words -/

/-- A text consists of words in this order, with blanks between them: a word ends at a blank or
where the text ends. -/
inductive Splits : List Char → List String → Prop where
  | nil : Splits [] []
  | gap {c cs tokens} (blank : isBlank c = true) (rest : Splits cs tokens) : Splits (c :: cs) tokens
  | word {w cs tokens} (nonempty : w ≠ []) (whole : ∀ c ∈ w, isBlank c = false)
      (ends : ∀ c ∈ cs.head?, isBlank c = true) (rest : Splits cs tokens) :
      Splits (w ++ cs) (String.ofList w :: tokens)

theorem words_blank {c : Char} (h : isBlank c = true) (cs : List Char) :
    words (c :: cs) = words cs := by
  unfold words
  rw [segments, if_pos h]
  rfl

/-- A word stands in front of the pieces of what follows it, when that begins with a blank. -/
theorem segments_append {token rest : List Char} (whole : ∀ c ∈ token, isBlank c = false)
    (ends : ∀ c ∈ rest.head?, isBlank c = true) :
    segments (token ++ rest) = token :: (segments rest).tail := by
  induction token with
  | nil =>
    cases rest with
    | nil => rfl
    | cons b rest =>
      rw [List.nil_append, segments, if_pos (ends b rfl), List.tail_cons]
  | cons c token ih =>
    have hc : ¬ isBlank c = true := by simp [whole c List.mem_cons_self]
    rw [List.cons_append, segments, if_neg hc, ih fun d hd => whole d (List.mem_cons_of_mem _ hd)]

theorem words_append {token rest : List Char} (nonempty : token ≠ [])
    (whole : ∀ c ∈ token, isBlank c = false) (ends : ∀ c ∈ rest.head?, isBlank c = true) :
    words (token ++ rest) = token :: words rest := by
  have hrest : words rest = (segments rest).tail.filter fun w => !w.isEmpty := by
    unfold words
    cases rest with
    | nil => rfl
    | cons b rest =>
      rw [segments, if_pos (ends b rfl)]
      rfl
  rw [hrest, words, segments_append whole ends, List.filter_cons_of_pos (by simpa using nonempty)]

theorem Splits.words_eq {cs : List Char} {tokens : List String} (h : Splits cs tokens) :
    (words cs).map String.ofList = tokens := by
  induction h with
  | nil => rfl
  | gap blank rest ih => rw [words_blank blank, ih]
  | word nonempty whole ends rest ih => rw [words_append nonempty whole ends, List.map_cons, ih]

/-- One more character in front of a text joins a gap or the first word. -/
theorem Splits.cons {cs : List Char} {tokens : List String} (h : Splits cs tokens) (c : Char) :
    ∃ tokens', Splits (c :: cs) tokens' := by
  cases hc : isBlank c with
  | true => exact ⟨tokens, .gap hc h⟩
  | false =>
    have hone : ∀ d ∈ [c], isBlank d = false := by simpa using hc
    cases h with
    | nil => exact ⟨_, .word (List.cons_ne_nil _ _) hone (fun _ hd => nomatch hd) .nil⟩
    | gap blank rest =>
      refine ⟨_, .word (List.cons_ne_nil _ _) hone (fun d hd => ?_) (.gap blank rest)⟩
      obtain rfl := Option.some.inj hd
      exact blank
    | @word w cs tokens nonempty whole ends rest =>
      have hword : ∀ d ∈ c :: w, isBlank d = false := by
        intro d hd
        rcases List.mem_cons.mp hd with rfl | hd
        · exact hc
        · exact whole d hd
      exact ⟨_, .word (List.cons_ne_nil _ _) hword ends rest⟩

/-- Every text splits. -/
theorem exists_splits (cs : List Char) : ∃ tokens, Splits cs tokens := by
  induction cs with
  | nil => exact ⟨[], .nil⟩
  | cons c cs ih =>
    obtain ⟨tokens, h⟩ := ih
    exact h.cons c

/-- **A text splits into its words**, and in no other way. -/
theorem words_eq_iff {cs : List Char} {tokens : List String} :
    (words cs).map String.ofList = tokens ↔ Splits cs tokens := by
  refine ⟨fun h => ?_, Splits.words_eq⟩
  obtain ⟨tokens', h'⟩ := exists_splits cs
  rwa [← h, h'.words_eq]

/-! ## Trimming -/

/-- A text without the blanks at both ends of another. -/
structure Trims (cs ts : List Char) : Prop where
  around : ∃ l r, cs = l ++ (ts ++ r) ∧ (∀ c ∈ l, isBlank c = true) ∧ ∀ c ∈ r, isBlank c = true
  first : ∀ c ∈ ts.head?, isBlank c = false
  last : ∀ c ∈ ts.getLast?, isBlank c = false

/-- What is dropped ends where a character is no blank. -/
theorem dropWhile_blanks {l ts : List Char} (blank : ∀ c ∈ l, isBlank c = true)
    (first : ∀ c ∈ ts.head?, isBlank c = false) : (l ++ ts).dropWhile isBlank = ts := by
  rw [List.dropWhile_append_of_pos blank]
  cases ts with
  | nil => rfl
  | cons c ts =>
    have hc : ¬ isBlank c = true := by rw [first c rfl]; decide
    exact List.dropWhile_cons_of_neg hc

theorem head?_dropWhile_blanks (cs : List Char) :
    ∀ c ∈ (cs.dropWhile isBlank).head?, isBlank c = false := by
  intro c hc
  have hstop := List.head?_dropWhile_not isBlank cs
  rw [Option.mem_def.mp hc] at hstop
  exact hstop

theorem mem_takeWhile_blanks {cs : List Char} : ∀ c ∈ cs.takeWhile isBlank, isBlank c = true :=
  List.all_eq_true.mp List.all_takeWhile

theorem Trims.trimChars_eq {cs ts : List Char} (h : Trims cs ts) : trimChars cs = ts := by
  obtain ⟨⟨l, r, rfl, hl, hr⟩, first, last⟩ := h
  unfold trimChars
  cases ts with
  | nil =>
    have hall : ∀ c ∈ l ++ ([] ++ r), isBlank c = true := fun c hc =>
      (List.mem_append.mp hc).elim (hl c) (hr c)
    rw [List.dropWhile_eq_nil_iff.mpr hall]
    rfl
  | cons d ts =>
    have hfirst : ∀ c ∈ (d :: ts ++ r).head?, isBlank c = false := first
    have hlast : ∀ c ∈ (d :: ts).reverse.head?, isBlank c = false := by
      rw [List.head?_reverse]
      exact last
    have hr' : ∀ c ∈ r.reverse, isBlank c = true := fun c hc => hr c (List.mem_reverse.mp hc)
    rw [dropWhile_blanks hl hfirst, List.reverse_append, dropWhile_blanks hr' hlast,
      List.reverse_reverse]

theorem trims_trimChars (cs : List Char) : Trims cs (trimChars cs) := by
  -- behind the blanks in front stands the trimmed text, and behind it are the other blanks
  obtain ⟨r, hr, hback⟩ : ∃ r, (∀ c ∈ r, isBlank c = true) ∧
      cs.dropWhile isBlank = trimChars cs ++ r := by
    refine ⟨((cs.dropWhile isBlank).reverse.takeWhile isBlank).reverse, fun c hc =>
      mem_takeWhile_blanks c (List.mem_reverse.mp hc), ?_⟩
    rw [trimChars, ← List.reverse_append, List.takeWhile_append_dropWhile, List.reverse_reverse]
  refine ⟨⟨cs.takeWhile isBlank, r, ?_, mem_takeWhile_blanks, hr⟩, fun c hc => ?_, fun c hc => ?_⟩
  · rw [← hback, List.takeWhile_append_dropWhile]
  · refine head?_dropWhile_blanks cs c ?_
    rw [hback, List.head?_append, Option.mem_def.mp hc]
    rfl
  · rw [trimChars, List.getLast?_reverse] at hc
    exact head?_dropWhile_blanks _ c hc

/-- **A text is trimmed in one way.** -/
theorem trims_iff {s t : String} : Trims s.toList t.toList ↔ trim s = t := by
  constructor
  · intro h
    rw [trim, h.trimChars_eq, String.ofList_toList]
  · rintro rfl
    rw [trim, String.toList_ofList]
    exact trims_trimChars s.toList

/-- Trimming leaves nothing of blanks, and of nothing else. -/
theorem trim_eq_empty_iff {s : String} : trim s = "" ↔ isAllBlank s = true := by
  rw [← trims_iff, isAllBlank, List.all_eq_true]
  constructor
  · rintro ⟨⟨l, r, hs, hl, hr⟩, -, -⟩ c hc
    rw [hs] at hc
    exact (List.mem_append.mp hc).elim (hl c) (hr c)
  · intro hall
    exact ⟨⟨s.toList, [], (List.append_nil _).symm, hall, nofun⟩, nofun, nofun⟩

/-! ## Numerals -/

/-- A row of digits and its value: each digit counts one, and all before it count ten times. -/
inductive Decimal : List Char → Nat → Prop where
  | digit {c} (digit : c.isDigit = true) : Decimal [c] (c.toNat - '0'.toNat)
  | more {cs n c} (front : Decimal cs n) (digit : c.isDigit = true) :
      Decimal (cs ++ [c]) (10 * n + (c.toNat - '0'.toNat))

/-- A numeral: a row of digits, after a plus sign or without one. -/
inductive Numeral : List Char → Nat → Prop where
  | plain {cs n} (digits : Decimal cs n) : Numeral cs n
  | signed {cs n} (digits : Decimal cs n) : Numeral ('+' :: cs) n

theorem Decimal.ne_nil {cs : List Char} {n : Nat} (h : Decimal cs n) : cs ≠ [] := by
  cases h with
  | digit _ => exact List.cons_ne_nil _ _
  | more _ _ => simp

theorem Decimal.all_isDigit {cs : List Char} {n : Nat} (h : Decimal cs n) :
    cs.all Char.isDigit = true := by
  induction h with
  | digit digit => simpa using digit
  | more _ digit ih => rw [List.all_append, ih, List.all_cons, digit, List.all_nil]; rfl

/-- A digit is no blank. -/
theorem isBlank_of_isDigit {c : Char} (h : c.isDigit = true) : isBlank c = false := by
  have hdigit : 48 ≤ c.toNat ∧ c.toNat ≤ 57 := Char.isDigit_iff_toNat.mp h
  simp only [isBlank, Bool.or_eq_false_iff, Bool.and_eq_false_iff, decide_eq_false_iff_not,
    beq_eq_false_iff_ne]
  omega

theorem Decimal.ofDigitChars_eq {cs : List Char} {n : Nat} (h : Decimal cs n) :
    Nat.ofDigitChars 10 cs 0 = n := by
  induction h with
  | digit _ => exact Nat.zero_add _
  | more _ _ ih =>
    rw [Nat.ofDigitChars_append, ih]
    rfl

/-- A row of digits has a value. -/
theorem exists_decimal {cs : List Char} (nonempty : cs ≠ []) (all : cs.all Char.isDigit = true) :
    ∃ n, Decimal cs n := by
  obtain ⟨front, c, rfl⟩ : ∃ front c, cs = front ++ [c] :=
    ⟨_, _, (List.dropLast_concat_getLast nonempty).symm⟩
  simp only [List.all_append, List.all_cons, List.all_nil, Bool.and_true, Bool.and_eq_true] at all
  by_cases hfront : front = []
  · subst hfront
    exact ⟨_, Decimal.digit all.2⟩
  · obtain ⟨n, h⟩ := exists_decimal hfront all.1
    exact ⟨_, h.more all.2⟩
termination_by cs.length

theorem digits?_eq_some_iff {cs : List Char} {n : Nat} : digits? cs = some n ↔ Decimal cs n := by
  unfold digits?
  constructor
  · intro h
    split at h
    · next hrow =>
      obtain ⟨nonempty, all⟩ : cs ≠ [] ∧ cs.all Char.isDigit = true := by simpa using hrow
      obtain ⟨m, hm⟩ := exists_decimal nonempty all
      obtain rfl : m = n := hm.ofDigitChars_eq.symm.trans (Option.some.inj h)
      exact hm
    · cases h
  · intro h
    have hrow : (!cs.isEmpty && cs.all Char.isDigit) = true := by
      rw [h.all_isDigit, Bool.and_true, Bool.not_eq_true', List.isEmpty_eq_false_iff]
      exact h.ne_nil
    rw [if_pos hrow, h.ofDigitChars_eq]

theorem numeral_iff {cs : List Char} {n : Nat} : Numeral cs n ↔ digits? (dropPlus cs) = some n := by
  rw [digits?_eq_some_iff]
  constructor
  · rintro (h | h)
    · rwa [dropPlus_of_all_isDigit h.all_isDigit]
    · exact h
  · intro h
    unfold dropPlus at h
    split at h
    · exact .signed h
    · exact .plain h

/-- **A numeral within the bound stands for its number.** -/
theorem natural?_eq_some_iff {bound n : Nat} {s : String} :
    natural? bound s = some n ↔ Numeral s.toList n ∧ n ≤ bound := by
  rw [natural?, Option.filter_eq_some_iff, numeral_iff, decide_eq_true_iff]

/-- **Refused is what stands for no number**, or for one that is too large. -/
theorem natural?_eq_none_iff {bound : Nat} {s : String} :
    natural? bound s = none ↔ ∀ n, Numeral s.toList n → bound < n := by
  rw [Option.eq_none_iff_forall_ne_some]
  refine forall_congr' fun n => ?_
  rw [ne_eq, natural?_eq_some_iff, not_and, Nat.not_le]

end TaskQueue.Text
