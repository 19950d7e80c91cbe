import TaskQueue.Cron.Basic

/-!
# The next run of a cron expression

`nextMatch` looks at the minutes after an instant, one year of them at most, and finds the first one
that the expression admits. The search goes day by day, so that days whose date is not admitted are
passed over whole. `nextRun` falls back to one hour later when nothing is found.

The year is one of 365 days. Both fail when they leave the range of instants.

Results:

* `firstFrom_eq_some_iff`, `firstFrom_eq_none_iff`: the search over a run of numbers finds the first
  one with a property.
-/

namespace TaskQueue.Cron

open Time

/-- The first of the `n` numbers from `lo` on that has a property. -/
def firstFrom (p : Nat → Bool) (lo : Nat) : Nat → Option Nat
  | 0 => none
  | n + 1 => if p lo then some lo else firstFrom p (lo + 1) n

theorem firstFrom_eq_none_iff {p : Nat → Bool} {lo n : Nat} :
    firstFrom p lo n = none ↔ ∀ k, lo ≤ k → k < lo + n → p k = false := by
  induction n generalizing lo with
  | zero => simp only [firstFrom, true_iff]; omega
  | succ n ih =>
    simp only [firstFrom]
    split
    · next h =>
      refine ⟨fun h' => (nomatch h'), fun h' => ?_⟩
      rw [h' lo (Nat.le_refl _) (by omega)] at h
      cases h
    · next h =>
      rw [ih]
      refine ⟨fun h' k hk1 hk2 => ?_, fun h' k hk1 hk2 => h' k (by omega) (by omega)⟩
      by_cases hk : k = lo
      · subst hk; simpa using h
      · exact h' k (by omega) (by omega)

theorem firstFrom_eq_some_iff {p : Nat → Bool} {lo n m : Nat} :
    firstFrom p lo n = some m ↔
      lo ≤ m ∧ m < lo + n ∧ p m = true ∧ ∀ k, lo ≤ k → k < m → p k = false := by
  induction n generalizing lo with
  | zero =>
    simp only [firstFrom, reduceCtorEq, false_iff]
    omega
  | succ n ih =>
    simp only [firstFrom]
    split
    · next h =>
      constructor
      · intro h'
        obtain rfl := Option.some.inj h'
        exact ⟨Nat.le_refl _, by omega, h, fun k hk1 hk2 => by omega⟩
      · rintro ⟨h1, _, _, h2⟩
        by_cases hm : lo = m
        · rw [hm]
        · rw [h2 lo (Nat.le_refl _) (by omega)] at h
          cases h
    · next h =>
      rw [ih]
      constructor
      · rintro ⟨h1, h2, h3, h4⟩
        refine ⟨by omega, by omega, h3, fun k hk1 hk2 => ?_⟩
        by_cases hk : k = lo
        · subst hk; simpa using h
        · exact h4 k (by omega) hk2
      · rintro ⟨h1, h2, h3, h4⟩
        have : lo ≠ m := fun he => h (he ▸ h3)
        exact ⟨by omega, by omega, h3, fun k hk1 hk2 => h4 k (by omega) hk2⟩

/-- Minutes in a day. -/
def minutesPerDay : Nat := 1440

/-- How many minutes are looked at: a year of 365 days. -/
def scanLimit : Nat := 365 * minutesPerDay

namespace Expression

/-- The first admitted minute among `left` minutes from minute `lo` of a day on, as a count of
minutes since 1970. At most `days` days are entered. -/
def scanDays (e : Expression) (day : Int) (lo left : Nat) : (days : Nat) → Option Int
  | 0 => none
  | days + 1 =>
    let here := min left (minutesPerDay - lo)
    let found := if e.admitsDay day then firstFrom e.admitsTime lo here else none
    match found with
    | some m => some (day * minutesPerDay + m)
    | none => if left ≤ here then none else e.scanDays (day + 1) 0 (left - here) days

/-- The first admitted minute among the `scanLimit` minutes from minute number `start` on. -/
def firstMinute (e : Expression) (start : Int) : Option Int :=
  e.scanDays (start / minutesPerDay) (start % minutesPerDay).toNat scanLimit 367

/-- The first admitted minute after `start`, within a year. Looking past the last instant is an
overflow. -/
def nextMatch (e : Expression) (start : Instant) : Except Overflow (Option Instant) :=
  match start.floorMinute.add? (60 * nanosPerSecond) with
  | none => .error .beyondRange
  | some first =>
    let second := first.seconds % 60
    let minuteAt (m : Int) : Option Instant := Instant.of? (m * 60 + second) first.nanos
    match e.firstMinute first.minuteNumber with
    | some m => ((minuteAt m).map some).elim (.error .beyondRange) .ok
    | none =>
      if (minuteAt (first.minuteNumber + scanLimit)).isSome then .ok none else .error .beyondRange

/-- The next run after `start`: the next admitted minute, or one hour later when there is none
within a year. -/
def nextRun (e : Expression) (start : Instant) : Except Overflow Instant := do
  match ← e.nextMatch start with
  | some t => return t
  | none =>
    match start.add? (3600 * nanosPerSecond) with
    | some t => return t
    | none => throw .beyondRange

end Expression

end TaskQueue.Cron
