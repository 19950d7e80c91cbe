import TaskQueue.Number.Power
import TaskQueue.Text.Blank
import TaskQueue.Text.Numeral
import TaskQueue.Time.Instant

/-!
# Timestamps

Writing and reading instants in the RFC 3339 form `2026-03-02T12:00:00.5Z`.

`render` writes universal time with as few fraction digits as are exact, in groups of three.
`renderMillis` writes three digits always and drops what is finer. A year outside 0–9999 has a sign.
A leap second is written as second 60.

`read?` takes exactly the form of the standard: four digits of the year, two of everything else, any
number of fraction digits, of which nine count, and `Z` or an offset with minutes. `readLoose?`
also takes blanks between the parts, single digits, a signed year of any length, `UTC` for `Z`, and
an offset without its colon.
-/

namespace TaskQueue.Time

/-! ## Writing -/

/-- A number with zeros in front up to a width. -/
def padded (width n : Nat) : List Char :=
  let ds := Nat.toDigits 10 n
  List.replicate (width - ds.length) '0' ++ ds

/-- A year: four digits, more with a sign when four do not do. -/
def yearText (y : Int) : List Char :=
  if 0 ≤ y ∧ y ≤ 9999 then padded 4 y.toNat
  else (if y < 0 then '-' else '+') :: padded 4 y.natAbs

namespace Instant

/-- Date and time of day to the second. -/
def renderSeconds (t : Instant) : List Char :=
  let d := Date.ofDays t.dayNumber
  let s := t.secondOfDay
  let second := s % 60 + if t.isLeap then 1 else 0
  yearText d.year ++ '-' :: padded 2 d.month ++ '-' :: padded 2 d.day ++
    'T' :: padded 2 (s / 3600) ++ ':' :: padded 2 (s / 60 % 60) ++ ':' :: padded 2 second

/-- Nanoseconds into the second that is written. -/
def fraction (t : Instant) : Nat := t.nanos % nanosPerSecond

/-- A timestamp with as few groups of three fraction digits as are exact. -/
def render (t : Instant) : String :=
  let f := t.fraction
  let digits :=
    if f = 0 then []
    else if f % 1000000 = 0 then '.' :: padded 3 (f / 1000000)
    else if f % 1000 = 0 then '.' :: padded 6 (f / 1000)
    else '.' :: padded 9 f
  String.ofList (t.renderSeconds ++ digits ++ ['Z'])

/-- A timestamp with exactly three fraction digits. -/
def renderMillis (t : Instant) : String :=
  String.ofList (t.renderSeconds ++ '.' :: padded 3 (t.fraction / 1000000) ++ ['Z'])

end Instant

/-! ## Reading -/

/-- A reader takes what it needs from the front of a text and hands back the rest. -/
abbrev TextReader (α : Type) := StateT (List Char) Option α

namespace TextReader

open Text

/-- A number of at least `lo` and at most `hi` digits, as many as there are. -/
def number (lo hi : Nat) : TextReader Nat := fun cs =>
  let ds := (cs.take hi).takeWhile Char.isDigit
  if lo ≤ ds.length then some (Nat.ofDigitChars 10 ds 0, cs.drop ds.length) else none

/-- One character of the given class. -/
def oneOf (p : Char → Bool) : TextReader Unit
  | c :: cs => if p c then some ((), cs) else none
  | [] => none

/-- Leaves out the characters of a class in front. -/
def skip (p : Char → Bool) : TextReader Unit := fun cs => some ((), cs.dropWhile p)

/-- Takes one character of the given class if it is there. -/
def optional (p : Char → Bool) : TextReader Bool
  | c :: cs => if p c then some (true, cs) else some (false, c :: cs)
  | [] => some (false, [])

/-- Nanoseconds from a fraction: a point and digits, of which nine count. -/
def fraction : TextReader Nat := do
  if ← optional (· == '.') then
    let cs ← get
    let ds := cs.takeWhile Char.isDigit
    if ds.isEmpty then failure
    set (cs.drop ds.length)
    let nine := ds.take 9
    return Nat.ofDigitChars 10 nine 0 * Number.tenTo (9 - nine.length)
  else
    return 0

/-- The sign of an offset, a minus also in its own character. -/
def sign : TextReader Int := do
  if ← optional (· == '+') then return 1
  oneOf fun c => c == '-' || c == '\u2212'
  return -1

/-- Seconds east of universal time, `Z` for none. `separator` takes what stands between hours and
minutes. -/
def offset (separator : TextReader Unit) : TextReader Int := do
  if ← optional fun c => c == 'Z' || c == 'z' then return 0
  let s ← sign
  let hours ← number 2 2
  separator
  let minutes ← number 2 2
  if minutes ≤ 59 ∧ hours ≤ 23 then return s * (hours * 3600 + minutes * 60)
  else failure

end TextReader

/-- What a timestamp says. Seconds go up to 60, and the offset is in seconds east. -/
structure Stamp where
  date : Date
  hour : Nat
  minute : Nat
  second : Nat
  nanos : Nat
  offset : Int

namespace Stamp

/-- The instant that a timestamp names, if its date and time of day exist and can be written. -/
def instant? (s : Stamp) : Option Instant :=
  if s.date.Valid ∧ s.hour ≤ 23 ∧ s.minute ≤ 59 ∧ s.second ≤ 60 ∧
      -262143 ≤ s.date.year ∧ s.date.year ≤ 262142 then
    let second := min s.second 59
    let leap := if s.second = 60 then nanosPerSecond else 0
    Instant.of? (s.date.toDays * 86400 + (s.hour * 3600 + s.minute * 60 + second : Nat) - s.offset)
      (leap + s.nanos)
  else none

end Stamp

open TextReader Text

/-- The form of the standard, and nothing before or after it. -/
def readStamp : TextReader Stamp := do
  let year ← number 4 4
  oneOf (· == '-')
  let month ← number 2 2
  oneOf (· == '-')
  let day ← number 2 2
  oneOf fun c => c == 'T' || c == 't' || c == ' '
  let hour ← number 2 2
  oneOf (· == ':')
  let minute ← number 2 2
  oneOf (· == ':')
  let second ← number 2 2
  let nanos ← fraction
  let offset ← offset (oneOf (· == ':'))
  return ⟨⟨year, month, day⟩, hour, minute, second, nanos, offset⟩

/-- A year of up to four digits, or of any number of digits after a sign. -/
def readYear : TextReader Int := do
  let cs ← get
  if ← optional (· == '-') then return -((← number 1 cs.length : Nat) : Int)
  if ← optional (· == '+') then return (← number 1 cs.length : Nat)
  return (← number 1 4 : Nat)

/-- `UTC` in any case. -/
def readUtc : TextReader Unit := do
  oneOf fun c => c == 'U' || c == 'u'
  oneOf fun c => c == 'T' || c == 't'
  oneOf fun c => c == 'C' || c == 'c'

/-- The loose form: blanks and short numbers are taken too. -/
def readLooseStamp : TextReader Stamp := do
  skip isBlank
  let year ← readYear
  skip isBlank
  oneOf (· == '-')
  skip isBlank
  let month ← number 1 2
  skip isBlank
  oneOf (· == '-')
  skip isBlank
  let day ← number 1 2
  oneOf fun c => c == 'T' || c == 't' || c == ' '
  skip isBlank
  let hour ← number 1 2
  skip isBlank
  oneOf (· == ':')
  skip isBlank
  let minute ← number 1 2
  skip isBlank
  oneOf (· == ':')
  skip isBlank
  let second ← number 1 2
  let nanos ← fraction
  skip isBlank
  let offset ← (do readUtc; return 0) <|> offset (skip fun c => c == ':' || isBlank c)
  skip isBlank
  return ⟨⟨year, month, day⟩, hour, minute, second, nanos, offset⟩

namespace Instant

/-- The instant of a whole text in the form of a reader. -/
def ofText? (r : TextReader Stamp) (s : String) : Option Instant :=
  match r s.toList with
  | some (stamp, []) => stamp.instant?
  | _ => none

/-- Reads a timestamp in the form of the standard. -/
def read? (s : String) : Option Instant := ofText? readStamp s

/-- Reads a timestamp in the loose form. -/
def readLoose? (s : String) : Option Instant := ofText? readLooseStamp s

end Instant

end TaskQueue.Time
