import TaskQueue.Time.Calendar
import TaskQueue.Time.Span

/-!
# Instants

An `Instant` is a point of universal time: whole seconds since the start of 1970 and nanoseconds
into the second. The count of seconds has no leap seconds. Such a second is the last second of a
minute with 10⁹ nanoseconds or more: it comes after the end of that second and before the next
minute.

Out of scope: time zones, and a clock that has leap seconds of its own.

Results:

* `le_trans`, `le_antisymm`, `le_total`: instants are linearly ordered;
* `add?_zero`, `move_zero`: adding nothing changes nothing.
-/

namespace TaskQueue.Time

/-- The first second that can be written: 1 January of the year -262143. -/
def minSecond : Int := -8334601228800

/-- The last second that can be written: the end of 31 December 262142. -/
def maxSecond : Int := 8210266876799

/-- Why a time cannot be told. -/
inductive Overflow where
  /-- An instant was moved beyond the range. -/
  | beyondRange
  /-- A move has more milliseconds than any move may have. -/
  | longMove
  /-- A wait would end later than time is counted. -/
  | deadline
  deriving DecidableEq, Repr

/-- The wording of an overflow. -/
def Overflow.message : Overflow → String
  | beyondRange => "`DateTime + TimeDelta` overflowed"
  | longMove => "TimeDelta::milliseconds out of bounds"
  | deadline => "overflow when adding duration to instant"

/-- A point of universal time. -/
structure Instant where
  seconds : Int
  nanos : Nat
  inRange : minSecond ≤ seconds ∧ seconds ≤ maxSecond
  nanos_lt : nanos < 2000000000
  leap : 1000000000 ≤ nanos → seconds % 60 = 59
  deriving DecidableEq

namespace Instant

/-- The start of 1970. -/
def epoch : Instant := ⟨0, 0, by decide, by decide, by decide⟩

instance : Inhabited Instant := ⟨epoch⟩

/-- The instant with these parts, if there is one. -/
def of? (seconds : Int) (nanos : Nat) : Option Instant :=
  if h : (minSecond ≤ seconds ∧ seconds ≤ maxSecond) ∧ nanos < 2000000000 ∧
      (1000000000 ≤ nanos → seconds % 60 = 59)
  then some ⟨seconds, nanos, h.1, h.2.1, h.2.2⟩
  else none

/-- The instant lies in a leap second. -/
def isLeap (t : Instant) : Bool := nanosPerSecond ≤ t.nanos

/-! ## Order -/

/-- Instants are ordered by their seconds, and within a second by their nanoseconds. -/
protected def le (a b : Instant) : Prop :=
  a.seconds < b.seconds ∨ (a.seconds = b.seconds ∧ a.nanos ≤ b.nanos)

instance : LE Instant := ⟨Instant.le⟩

instance : LT Instant := ⟨fun a b => ¬ b ≤ a⟩

instance (a b : Instant) : Decidable (a ≤ b) :=
  inferInstanceAs (Decidable (_ ∨ (_ ∧ _)))

instance (a b : Instant) : Decidable (a < b) := inferInstanceAs (Decidable (¬ _))

theorem le_def {a b : Instant} :
    a ≤ b ↔ a.seconds < b.seconds ∨ (a.seconds = b.seconds ∧ a.nanos ≤ b.nanos) := Iff.rfl

theorem lt_def {a b : Instant} :
    a < b ↔ a.seconds < b.seconds ∨ (a.seconds = b.seconds ∧ a.nanos < b.nanos) := by
  show ¬ b ≤ a ↔ _
  rw [le_def]
  omega

theorem le_refl (a : Instant) : a ≤ a := .inr ⟨rfl, Nat.le_refl _⟩

theorem le_trans {a b c : Instant} (h : a ≤ b) (h' : b ≤ c) : a ≤ c := by
  rw [le_def] at *
  omega

theorem le_total (a b : Instant) : a ≤ b ∨ b ≤ a := by
  rw [le_def, le_def]
  omega

theorem le_antisymm {a b : Instant} (h : a ≤ b) (h' : b ≤ a) : a = b := by
  rw [le_def] at *
  obtain ⟨s, n, _⟩ := a
  obtain ⟨s', n', _⟩ := b
  simp only at h h'
  obtain rfl : s = s' := by omega
  obtain rfl : n = n' := by omega
  rfl

/-! ## Moving in time -/

/-- Moves an instant by a signed number of nanoseconds; none when that leaves the range.

A leap second is left as if it were the second before it when time moves on, and as if it were the
second after it when time moves back, unless the move is shorter than a second and ends inside the
leap second or the second before it. -/
def add? (t : Instant) (d : Int) : Option Instant :=
  let second : Int := nanosPerSecond
  if t.isLeap then
    if d.tdiv second = 0 ∧ (d ≤ 0 ∨ (t.nanos : Int) + d < 2 * second) then
      of? t.seconds ((t.nanos : Int) + d).toNat
    else
      let s := if 0 < d then t.seconds else t.seconds + 1
      let total := s * second + ((t.nanos : Int) - second) + d
      of? (total / second) (total % second).toNat
  else
    let total := t.seconds * second + t.nanos + d
    of? (total / second) (total % second).toNat

/-- Moves an instant by a signed number of nanoseconds. -/
def move (t : Instant) (d : Int) : Except Overflow Instant :=
  (t.add? d).elim (.error .beyondRange) .ok

/-- The longest span by which an instant can be moved: 2⁶³ − 1 milliseconds. -/
def maxMove : Nat := 9223372036854775807 * 1000000

/-- Moves an instant by a signed number of milliseconds. -/
def moveMillis (t : Instant) (n : Int) : Except Overflow Instant :=
  let d := n * nanosPerMilli
  if d.natAbs ≤ maxMove then t.move d else .error .longMove

/-- Moves an instant on by a span; none when the span is too long or the range is left. -/
def addSpan? (t : Instant) (s : Span) : Option Instant :=
  if s.nanos ≤ maxMove then t.add? s.nanos else none

/-- The second of the day. -/
def secondOfDay (t : Instant) : Nat := (t.seconds % 86400).toNat

/-- The nanoseconds from `u` to `t`. A leap second counts when the time of day of the later second
lies beyond it. -/
def since (t u : Instant) : Int :=
  let leap : Int :=
    if u.secondOfDay < t.secondOfDay ∧ u.isLeap then 1
    else if t.secondOfDay < u.secondOfDay ∧ t.isLeap then -1
    else 0
  (t.seconds - u.seconds + leap) * nanosPerSecond + ((t.nanos : Int) - u.nanos)

/-- The time from `now` until `t`, none once it has passed. -/
def until? (t now : Instant) : Option Span :=
  let d := t.since now
  if d < 0 then none
  else if h : d.toNat < spanLimit then some ⟨d.toNat, h⟩
  else none

/-! ## Parts -/

/-- The day that the instant lies in. -/
def dayNumber (t : Instant) : Int := t.seconds / 86400

/-- The minute of the day. -/
def minuteOfDay (t : Instant) : Nat := t.secondOfDay / 60

/-- The whole minutes since the start of 1970. -/
def minuteNumber (t : Instant) : Int := t.seconds / 60

/-- The start of the minute, for instants whose nanoseconds since 1970 fit in 64 signed bits. Other
instants keep their seconds. -/
def floorMinute (t : Instant) : Instant :=
  let stamp := t.seconds * nanosPerSecond + t.nanos
  if -9223372036854775808 ≤ stamp ∧ stamp < 9223372036854775808 then
    (t.add? (-(stamp % (60 * nanosPerSecond)))).getD t
  else t

/-- The instant without what is finer than a millisecond. -/
def floorMilli (t : Instant) : Instant :=
  ⟨t.seconds, t.nanos / 1000000 * 1000000, t.inRange,
    by have := t.nanos_lt; omega,
    fun h => t.leap (by omega)⟩

/-! ## Lemmas -/

theorem of?_eq_some {s : Int} {n : Nat} {t : Instant} (h : of? s n = some t) :
    t.seconds = s ∧ t.nanos = n := by
  simp only [of?] at h
  split at h
  · obtain rfl := Option.some.inj h
    exact ⟨rfl, rfl⟩
  · cases h

@[simp] theorem of?_self (t : Instant) : of? t.seconds t.nanos = some t := by
  rw [of?, dif_pos ⟨t.inRange, t.nanos_lt, t.leap⟩]

theorem add?_zero (t : Instant) : t.add? 0 = some t := by
  have hn := t.nanos_lt
  by_cases h : t.isLeap = true
  · simp [add?, h]
  · have hlt : t.nanos < nanosPerSecond := Nat.not_le.1 fun h' => h (decide_eq_true h')
    simp only [nanosPerSecond] at hlt
    have h1 : (t.seconds * (nanosPerSecond : Int) + t.nanos + 0) / (nanosPerSecond : Int) =
        t.seconds := by
      simp only [nanosPerSecond]; omega
    have h2 : ((t.seconds * (nanosPerSecond : Int) + t.nanos + 0) %
        (nanosPerSecond : Int)).toNat = t.nanos := by
      simp only [nanosPerSecond]; omega
    simp only [add?]
    rw [if_neg h, h1, h2, of?_self]

theorem move_zero (t : Instant) : t.move 0 = .ok t := by
  simp [move, add?_zero]

end Instant

end TaskQueue.Time
