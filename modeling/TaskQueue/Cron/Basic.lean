import TaskQueue.Time.Instant

/-!
# Cron expressions

Five fields, each a fixed value or free. A minute is admitted when every fixed field agrees with it:
day of the month and weekday both have to agree when both are fixed. Everything is universal time,
and weekday 0 is Sunday.

Out of scope: lists, ranges, steps and names of months or weekdays, which the texts do not have
either.

Results:

* `admits_iff`: what an expression asks of an instant, field by field.
-/

namespace TaskQueue.Cron

open Time

/-- One field: free, or fixed to a value. -/
inductive Field where
  | any
  | exactly (n : Nat)
  deriving DecidableEq, Repr

/-- A field admits a value. -/
def Field.admits : Field → Nat → Bool
  | any, _ => true
  | exactly n, v => n == v

/-- A cron expression. -/
structure Expression where
  minute : Field
  hour : Field
  day : Field
  month : Field
  weekday : Field
  deriving DecidableEq, Repr

namespace Expression

/-! ## Common expressions -/

/-- Every minute. -/
def everyMinute : Expression := ⟨.any, .any, .any, .any, .any⟩

/-- Once an hour. -/
def hourly (minute : Nat) : Expression := { everyMinute with minute := .exactly minute }

/-- Once a day. -/
def daily (hour minute : Nat) : Expression := { hourly minute with hour := .exactly hour }

/-- Once a week. -/
def weekly (weekday hour minute : Nat) : Expression :=
  { daily hour minute with weekday := .exactly weekday }

/-- Once a month. -/
def monthly (day hour minute : Nat) : Expression := { daily hour minute with day := .exactly day }

/-! ## What an expression admits -/

/-- The fields that depend on the time of day admit this minute of the day. -/
def admitsTime (e : Expression) (minuteOfDay : Nat) : Bool :=
  e.minute.admits (minuteOfDay % 60) && e.hour.admits (minuteOfDay / 60)

/-- The fields that depend on the date admit this day. -/
def admitsDay (e : Expression) (dayNumber : Int) : Bool :=
  let d := Date.ofDays dayNumber
  e.day.admits d.day && e.month.admits d.month && e.weekday.admits (Date.weekday dayNumber)

/-- The expression admits the minute of an instant. -/
def admits (e : Expression) (t : Instant) : Bool :=
  e.admitsTime t.minuteOfDay && e.admitsDay t.dayNumber

theorem admits_iff (e : Expression) (t : Instant) :
    e.admits t = true ↔
      e.minute.admits (t.minuteOfDay % 60) = true ∧ e.hour.admits (t.minuteOfDay / 60) = true ∧
      e.day.admits (Date.ofDays t.dayNumber).day = true ∧
      e.month.admits (Date.ofDays t.dayNumber).month = true ∧
      e.weekday.admits (Date.weekday t.dayNumber) = true := by
  simp only [admits, admitsTime, admitsDay, Bool.and_eq_true, and_assoc]

end Expression

end TaskQueue.Cron
