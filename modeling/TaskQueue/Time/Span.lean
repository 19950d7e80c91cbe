/-!
# Spans of time

A `Span` is a non-negative length of time in whole nanoseconds, of at most 2⁶⁴ − 1 seconds and a
fraction.
-/

namespace TaskQueue.Time

/-- Nanoseconds in a second. -/
def nanosPerSecond : Nat := 1000000000

/-- Nanoseconds in a millisecond. -/
def nanosPerMilli : Nat := 1000000

/-- 2⁶⁴ seconds in nanoseconds, which no span reaches. -/
abbrev spanLimit : Nat := 18446744073709551616000000000

/-- A length of time. -/
structure Span where
  nanos : Nat
  nanos_lt : nanos < spanLimit
  deriving DecidableEq

namespace Span

instance : LE Span := ⟨fun a b => a.nanos ≤ b.nanos⟩

instance (a b : Span) : Decidable (a ≤ b) := inferInstanceAs (Decidable (a.nanos ≤ b.nanos))

/-- No time at all. -/
def zero : Span := ⟨0, by decide⟩

instance : Inhabited Span := ⟨zero⟩

/-- The span of so many seconds and nanoseconds, none beyond the longest. -/
def of? (seconds nanos : Nat) : Option Span :=
  if h : seconds * nanosPerSecond + nanos < spanLimit then some ⟨_, h⟩ else none

/-- A number of seconds, at most 2⁶⁴ − 1 of them. -/
def ofSeconds (n : Nat) : Span :=
  ⟨min n 18446744073709551615 * 1000000000, by simp only [spanLimit]; omega⟩

/-- A number of milliseconds, at most 2⁶⁴ − 1 of them. -/
def ofMillis (n : Nat) : Span :=
  ⟨min n 18446744073709551615 * 1000000, by simp only [spanLimit]; omega⟩

/-- Whole seconds. -/
def seconds (s : Span) : Nat := s.nanos / nanosPerSecond

/-- What is left over the whole seconds. -/
def subsecNanos (s : Span) : Nat := s.nanos % nanosPerSecond

/-- Whole milliseconds. -/
def millis (s : Span) : Nat := s.nanos / nanosPerMilli

/-- No time at all. -/
def isZero (s : Span) : Bool := s.nanos == 0

/-- The shorter of two spans. -/
def min (a b : Span) : Span := if a ≤ b then a else b

/-- The longer of two spans. -/
def max (a b : Span) : Span := if a ≤ b then b else a

/-- The decimal digits of `n` in a field of `width` places, without the zeros at the end. -/
def fractionDigits (width n : Nat) : List Char :=
  let ds := Nat.toDigits 10 n
  ((List.replicate (width - ds.length) '0' ++ ds).reverse.dropWhile (· == '0')).reverse

/-- A decimal number with as many places as it needs. -/
def decimal (whole width fraction : Nat) : String :=
  let ds := fractionDigits width fraction
  whole.repr ++ if ds.isEmpty then "" else "." ++ String.ofList ds

/-- The span in the largest unit that it fills, from seconds down to nanoseconds. -/
def describe (s : Span) : String :=
  if 0 < s.seconds then decimal s.seconds 9 s.subsecNanos ++ "s"
  else if nanosPerMilli ≤ s.nanos then
    decimal (s.nanos / nanosPerMilli) 6 (s.nanos % nanosPerMilli) ++ "ms"
  else if 1000 ≤ s.nanos then decimal (s.nanos / 1000) 3 (s.nanos % 1000) ++ "µs"
  else decimal s.nanos 0 0 ++ "ns"

end Span

end TaskQueue.Time
