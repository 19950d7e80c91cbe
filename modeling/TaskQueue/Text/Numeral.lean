/-!
# Decimal numerals

Reading whole numbers written in ASCII digits, within bounds.

Results:

* `natural?_repr`, `integer?_repr`: the numeral of a number within the bounds reads back;
* `repr_injective`: different numbers have different numerals;
* `natural?_le`: what is read is within the bound.
-/

namespace TaskQueue.Text

/-- The largest number of 32 bits. -/
def maxNat32 : Nat := 4294967295

/-- The largest number of 64 bits. -/
def maxNat64 : Nat := 18446744073709551615

/-- The number that one or more digits write. -/
def digits? (cs : List Char) : Option Nat :=
  if !cs.isEmpty && cs.all Char.isDigit then some (Nat.ofDigitChars 10 cs 0) else none

/-- Leaves out one plus sign in front. -/
def dropPlus : List Char → List Char
  | '+' :: cs => cs
  | cs => cs

/-- A natural number up to `bound`: digits after an optional plus sign. -/
def natural? (bound : Nat) (s : String) : Option Nat :=
  (digits? (dropPlus s.toList)).filter (· ≤ bound)

/-- An integer of 64 bits: digits after an optional sign. -/
def integer? (s : String) : Option Int :=
  match s.toList with
  | '-' :: cs => ((digits? cs).filter (· ≤ 9223372036854775808)).map fun n => -(n : Int)
  | cs => ((digits? (dropPlus cs)).filter (· < 9223372036854775808)).map fun n => (n : Int)

theorem all_isDigit_toDigits (n : Nat) : (Nat.toDigits 10 n).all Char.isDigit = true := by
  simp only [List.all_eq_true]
  exact fun c hc => Nat.isDigit_of_mem_toDigits (by decide) (by decide) hc

theorem digits?_toDigits (n : Nat) : digits? (Nat.toDigits 10 n) = some n := by
  have hne : (Nat.toDigits 10 n).isEmpty = false := by
    cases h : Nat.toDigits 10 n with
    | nil => exact absurd h Nat.toDigits_ne_nil
    | cons => rfl
  simp [digits?, all_isDigit_toDigits, hne, Nat.ofDigitChars_toDigits]

theorem dropPlus_of_all_isDigit {cs : List Char} (h : cs.all Char.isDigit = true) :
    dropPlus cs = cs := by
  unfold dropPlus
  split
  · simp at h
  · rfl

theorem dropPlus_toDigits (n : Nat) : dropPlus (Nat.toDigits 10 n) = Nat.toDigits 10 n :=
  dropPlus_of_all_isDigit (all_isDigit_toDigits n)

theorem natural?_repr {bound n : Nat} (h : n ≤ bound) : natural? bound n.repr = some n := by
  simp [natural?, Nat.toList_repr, dropPlus_toDigits, digits?_toDigits, h]

/-- Different numbers have different numerals. -/
theorem repr_injective {m n : Nat} (h : m.repr = n.repr) : m = n := by
  have hm := natural?_repr (Nat.le_max_left m n)
  have hn := natural?_repr (Nat.le_max_right m n)
  rw [h, hn] at hm
  exact (Option.some.inj hm).symm

theorem integer?_repr {n : Int} (h : -9223372036854775808 ≤ n) (h' : n < 9223372036854775808) :
    integer? n.repr = some n := by
  cases n with
  | ofNat n =>
    have hlist : (Int.ofNat n).repr.toList = Nat.toDigits 10 n := Nat.toList_repr
    have hlt : n < 9223372036854775808 := Int.ofNat_lt.mp h'
    unfold integer?
    rw [hlist]
    split
    · next cs hcs =>
      -- a digit is no sign
      have hall := all_isDigit_toDigits n
      rw [hcs] at hall
      cases hall
    · rw [dropPlus_toDigits, digits?_toDigits, Option.filter_some,
        if_pos (decide_eq_true hlt)]
      rfl
  | negSucc n =>
    have hlist : (Int.negSucc n).repr.toList = '-' :: Nat.toDigits 10 (n + 1) := by
      show ("-" ++ (n + 1).repr).toList = _
      rw [String.toList_append, Nat.toList_repr]
      rfl
    have hle : n + 1 ≤ 9223372036854775808 := by omega
    unfold integer?
    rw [hlist]
    split
    · next cs hcs =>
      obtain ⟨-, rfl⟩ := List.cons.inj hcs
      rw [digits?_toDigits, Option.filter_some, if_pos (decide_eq_true hle)]
      rfl
    · next hother => exact absurd rfl (hother _)

theorem natural?_le {bound n : Nat} {s : String} (h : natural? bound s = some n) : n ≤ bound := by
  obtain ⟨_, h⟩ := Option.filter_eq_some_iff.1 h
  simpa using h

end TaskQueue.Text
