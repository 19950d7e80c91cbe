/-!
# The proleptic Gregorian calendar

Dates against a count of days in which day 0 is 1 January 1970.

Results:

* `yearStart_yearOf_le`, `lt_yearStart_succ`: `yearOf n` is the year that day `n` lies in;
* `valid_ofDays`, `toDays_ofDays`: every day number is that of exactly the date it is split into;
* `ofDays_toDays`: every valid date is found again.
-/

namespace TaskQueue.Time

/-! ## Years and months -/

/-- Every fourth year, but of the centuries only every fourth. -/
def isLeapYear (y : Int) : Bool := y % 4 == 0 && (y % 100 != 0 || y % 400 == 0)

/-- The lengths of the twelve months of a year. -/
def monthLengths (y : Int) : List Nat :=
  [31, if isLeapYear y then 29 else 28, 31, 30, 31, 30, 31, 31, 30, 31, 30, 31]

/-- The length of a month, none for a number that names no month. -/
def daysInMonth (y : Int) (m : Nat) : Nat :=
  if m = 0 then 0 else ((monthLengths y)[m - 1]?).getD 0

/-- The day number of 1 January. -/
def yearStart (y : Int) : Int :=
  365 * (y - 1) + (y - 1) / 4 - (y - 1) / 100 + (y - 1) / 400 - 719162

theorem yearStart_succ (y : Int) :
    yearStart (y + 1) = yearStart y + if isLeapYear y then 366 else 365 := by
  have key : isLeapYear y = decide (y % 4 = 0 ∧ (y % 100 ≠ 0 ∨ y % 400 = 0)) := by
    simp only [isLeapYear]
    by_cases h4 : y % 4 = 0 <;> by_cases h100 : y % 100 = 0 <;> by_cases h400 : y % 400 = 0 <;>
      simp [h4, h100, h400]
  rw [key]
  simp only [yearStart, decide_eq_true_eq]
  split <;> omega

theorem yearStart_mono {a b : Int} (h : a ≤ b) : yearStart a ≤ yearStart b := by
  simp only [yearStart]; omega

/-- The year that a day lies in. -/
def yearOf (n : Int) : Int :=
  let y := (n + 719162) * 400 / 146097 + 1
  if n < yearStart y then y - 1
  else if yearStart (y + 1) ≤ n then y + 1
  else y

theorem yearStart_yearOf_le (n : Int) : yearStart (yearOf n) ≤ n := by
  simp only [yearOf]
  split
  · simp only [yearStart] at *; omega
  · split
    · assumption
    · simp only [yearStart] at *; omega

theorem lt_yearStart_succ (n : Int) : n < yearStart (yearOf n + 1) := by
  simp only [yearOf]
  split
  · next h => simpa using h
  · split
    · simp only [yearStart] at *; omega
    · next h => omega

/-! ## Dates -/

/-- A date of the calendar. Months and days count from 1. -/
structure Date where
  year : Int
  month : Nat
  day : Nat
  deriving DecidableEq, Repr

/-- The length of spans that follow each other. -/
def spanTotal : List Nat → Nat
  | [] => 0
  | l :: ls => l + spanTotal ls

@[simp] theorem spanTotal_nil : spanTotal [] = 0 := rfl

@[simp] theorem spanTotal_cons (l : Nat) (ls : List Nat) :
    spanTotal (l :: ls) = l + spanTotal ls := rfl

theorem spanTotal_append (ls ks : List Nat) :
    spanTotal (ls ++ ks) = spanTotal ls + spanTotal ks := by
  induction ls with
  | nil => simp
  | cons l ls ih => simp only [List.cons_append, spanTotal_cons, ih]; omega

/-- How many of the spans fit in front of place `n`, and how far into the next span it lies. -/
def splitSpans : List Nat → Nat → Nat × Nat
  | [], n => (0, n)
  | l :: ls, n =>
    if n < l then (0, n) else ((splitSpans ls (n - l)).1 + 1, (splitSpans ls (n - l)).2)

namespace Date

/-- The date exists. -/
def Valid (d : Date) : Prop :=
  1 ≤ d.month ∧ d.month ≤ 12 ∧ 1 ≤ d.day ∧ d.day ≤ daysInMonth d.year d.month

instance (d : Date) : Decidable d.Valid := inferInstanceAs (Decidable (_ ∧ _ ∧ _ ∧ _))

/-- The number of a date's day. -/
def toDays (d : Date) : Int :=
  yearStart d.year + (spanTotal ((monthLengths d.year).take (d.month - 1)) : Nat) +
    (d.day - 1 : Nat)

/-- The date of a day. -/
def ofDays (n : Int) : Date :=
  let y := yearOf n
  let (m, d) := splitSpans (monthLengths y) (n - yearStart y).toNat
  ⟨y, m + 1, d + 1⟩

/-- The day of the week, from 0 for Sunday. -/
def weekday (n : Int) : Nat := ((n + 4) % 7).toNat

end Date

theorem splitSpans_fst_lt {ls : List Nat} {n : Nat} (h : n < spanTotal ls) :
    (splitSpans ls n).1 < ls.length := by
  induction ls generalizing n with
  | nil => simp at h
  | cons l ls ih =>
    simp only [splitSpans]
    split
    · simp
    · have := ih (n := n - l) (by simp only [spanTotal_cons] at h; omega)
      simp only [List.length_cons]
      omega

theorem splitSpans_snd_lt {ls : List Nat} {n : Nat} (h : n < spanTotal ls) :
    (splitSpans ls n).2 < (ls[(splitSpans ls n).1]?).getD 0 := by
  induction ls generalizing n with
  | nil => simp at h
  | cons l ls ih =>
    simp only [splitSpans]
    split
    · next hl => simpa using hl
    · have := ih (n := n - l) (by simp only [spanTotal_cons] at h; omega)
      simpa using this

theorem splitSpans_add (ls : List Nat) (n : Nat) :
    spanTotal (ls.take (splitSpans ls n).1) + (splitSpans ls n).2 = n := by
  induction ls generalizing n with
  | nil => simp [splitSpans]
  | cons l ls ih =>
    simp only [splitSpans]
    split
    · simp
    · have := ih (n - l)
      simp only [List.take_succ_cons, spanTotal_cons]
      omega

theorem splitSpans_of_lt {ls : List Nat} {m d : Nat} (hm : m < ls.length)
    (hd : d < (ls[m]?).getD 0) : splitSpans ls (spanTotal (ls.take m) + d) = (m, d) := by
  induction ls generalizing m with
  | nil => simp at hm
  | cons l ls ih =>
    cases m with
    | zero =>
      simp only [List.getElem?_cons_zero, Option.getD_some] at hd
      simp [splitSpans, hd]
    | succ m =>
      have hrest := ih (by simpa using hm) (by simpa using hd)
      have hsum : spanTotal ((l :: ls).take (m + 1)) + d = l + (spanTotal (ls.take m) + d) := by
        simp only [List.take_succ_cons, spanTotal_cons, Nat.add_assoc]
      rw [hsum, splitSpans, if_neg (by omega), Nat.add_sub_cancel_left, hrest]

theorem spanTotal_monthLengths (y : Int) :
    spanTotal (monthLengths y) = if isLeapYear y then 366 else 365 := by
  simp only [monthLengths]
  split <;> rfl

theorem length_monthLengths (y : Int) : (monthLengths y).length = 12 := rfl

namespace Date

theorem dayOfYear_lt (n : Int) :
    (n - yearStart (yearOf n)).toNat < spanTotal (monthLengths (yearOf n)) := by
  have h1 := yearStart_yearOf_le n
  have h2 := lt_yearStart_succ n
  rw [yearStart_succ] at h2
  rw [spanTotal_monthLengths]
  cases h : isLeapYear (yearOf n) <;>
    simp only [h, if_true, if_false, Bool.false_eq_true] at h2 ⊢ <;>
    omega

/-- **Every day has a date.** -/
theorem valid_ofDays (n : Int) : (ofDays n).Valid := by
  have hlt := dayOfYear_lt n
  have h1 := splitSpans_fst_lt hlt
  have h2 := splitSpans_snd_lt hlt
  rw [length_monthLengths] at h1
  refine ⟨?_, ?_, ?_, ?_⟩
  · simp [ofDays]
  · simp only [ofDays]; omega
  · simp [ofDays]
  · simp only [ofDays, daysInMonth, Nat.add_one_ne_zero, if_false, Nat.add_sub_cancel]
    omega

theorem toDays_ofDays (n : Int) : (ofDays n).toDays = n := by
  have h1 := yearStart_yearOf_le n
  have h2 := splitSpans_add (monthLengths (yearOf n)) (n - yearStart (yearOf n)).toNat
  simp only [toDays, ofDays, Nat.add_sub_cancel]
  omega

/-- A day number within a year names that year. -/
theorem yearOf_eq {n y : Int} (h1 : yearStart y ≤ n) (h2 : n < yearStart (y + 1)) :
    yearOf n = y := by
  have h3 := yearStart_yearOf_le n
  have h4 := lt_yearStart_succ n
  refine Int.le_antisymm (Int.not_lt.1 fun h => ?_) (Int.not_lt.1 fun h => ?_)
  · have := yearStart_mono (a := y + 1) (b := yearOf n) h
    omega
  · have := yearStart_mono (a := yearOf n + 1) (b := y) h
    omega

theorem ofDays_toDays {d : Date} (h : d.Valid) : ofDays d.toDays = d := by
  obtain ⟨hm1, hm2, hd1, hd2⟩ := h
  have hm : d.month - 1 < (monthLengths d.year).length := by rw [length_monthLengths]; omega
  have hd : d.day - 1 < ((monthLengths d.year)[d.month - 1]?).getD 0 := by
    simp only [daysInMonth] at hd2
    rw [if_neg (by omega)] at hd2
    omega
  have hsplit := splitSpans_of_lt hm hd
  have hsum : spanTotal ((monthLengths d.year).take (d.month - 1)) + (d.day - 1) <
      spanTotal (monthLengths d.year) := by
    have hm' := hm
    rw [List.getElem?_eq_getElem hm, Option.getD_some] at hd
    have h3 : spanTotal (monthLengths d.year) =
        spanTotal ((monthLengths d.year).take (d.month - 1)) +
          spanTotal ((monthLengths d.year).drop (d.month - 1)) := by
      rw [← spanTotal_append, List.take_append_drop]
    rw [h3, List.drop_eq_getElem_cons hm, spanTotal_cons]
    omega
  have hyear : yearOf d.toDays = d.year := by
    refine yearOf_eq ?_ ?_
    · simp only [toDays]; omega
    · rw [yearStart_succ]
      rw [spanTotal_monthLengths] at hsum
      simp only [toDays]
      generalize spanTotal ((monthLengths d.year).take (d.month - 1)) = s at hsum ⊢
      cases hl : isLeapYear d.year <;>
        simp only [hl, if_true, if_false, Bool.false_eq_true] at hsum ⊢ <;> omega
  have hday : (d.toDays - yearStart (yearOf d.toDays)).toNat =
      spanTotal ((monthLengths d.year).take (d.month - 1)) + (d.day - 1) := by
    rw [hyear]; simp only [toDays]; omega
  simp only [ofDays]
  rw [hday, hyear, hsplit]
  obtain ⟨y, m, dd⟩ := d
  simp only [Date.mk.injEq, true_and]
  exact ⟨Nat.sub_add_cancel hm1, Nat.sub_add_cancel hd1⟩

end Date

end TaskQueue.Time
