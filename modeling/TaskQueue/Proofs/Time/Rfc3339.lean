import TaskQueue.Time.Rfc3339

/-!
# Timestamps that read back

A timestamp with three fraction digits drops what is finer than a millisecond. It is in the form of
the standard when its year has four digits; any other year has a sign, which the standard does not
know.

Results:

* `number_padded`, `fraction_padded`: what is written with leading zeros reads back;
* `read?_renderMillis`: **a timestamp of the years 0 to 9999 reads back** but for what is finer than
  a millisecond;
* `read?_renderMillis_eq_none`: a timestamp of any other year cannot be read.
-/

namespace TaskQueue.Time

open TextReader

/-! ## Numbers with leading zeros -/

theorem length_padded {width n : Nat} (hw : 0 < width) (hn : n < Number.tenTo width) :
    (padded width n).length = width := by
  have hle : (Nat.toDigits 10 n).length ≤ width :=
    (Nat.length_toDigits_le_iff (by decide) hw).mpr hn
  unfold padded
  rw [List.length_append, List.length_replicate]
  omega

theorem isDigit_padded {width n : Nat} : ∀ c ∈ padded width n, c.isDigit = true := by
  intro c hc
  unfold padded at hc
  rcases List.mem_append.mp hc with hc | hc
  · rw [List.eq_of_mem_replicate hc]
    rfl
  · exact Nat.isDigit_of_mem_toDigits (by decide) (by decide) hc

theorem ofDigitChars_padded (width n : Nat) : Nat.ofDigitChars 10 (padded width n) 0 = n := by
  unfold padded
  rw [Nat.ofDigitChars_append, Nat.ofDigitChars_replicate_zero, Nat.mul_zero,
    Nat.ofDigitChars_toDigits (by decide) (by decide)]

theorem takeWhile_padded (width n : Nat) {cs : List Char}
    (hcs : ∀ c ∈ cs.head?, c.isDigit = false) :
    (padded width n ++ cs).takeWhile Char.isDigit = padded width n := by
  rw [List.takeWhile_append_of_pos isDigit_padded]
  cases cs with
  | nil => rw [List.takeWhile_nil, List.append_nil]
  | cons c cs =>
    have hc : ¬ c.isDigit = true := by
      rw [hcs c rfl]
      exact Bool.false_ne_true
    rw [List.takeWhile_cons_of_neg hc, List.append_nil]

/-! ## Readers -/

namespace TextReader

variable {α β : Type} {cs cs' : List Char}

/-- A reader goes on where the one before it has stopped. -/
theorem bind_of_eq {x : TextReader α} {a : α} (h : x cs = some (a, cs')) (f : α → TextReader β) :
    (x >>= f) cs = f a cs' := by
  show (x cs).bind (fun p => f p.1 p.2) = _
  rw [h]
  rfl

/-- A reader stops where the one before it has failed. -/
theorem bind_of_eq_none {x : TextReader α} (h : x cs = none) (f : α → TextReader β) :
    (x >>= f) cs = none := by
  show (x cs).bind (fun p => f p.1 p.2) = _
  rw [h]
  rfl

/-- A number is read up to the first character that is no digit. -/
theorem number_padded {lo hi width n : Nat} (hlo : lo ≤ (padded width n).length)
    (hhi : (padded width n).length ≤ hi) (hcs : ∀ c ∈ cs.head?, c.isDigit = false) :
    number lo hi (padded width n ++ cs) = some (n, cs) := by
  have hstop : ∀ c ∈ (cs.take (hi - (padded width n).length)).head?, c.isDigit = false := by
    intro c hc
    rw [List.head?_take] at hc
    split at hc
    · cases hc
    · exact hcs c hc
  unfold number
  simp only [List.take_append, List.take_of_length_le hhi, takeWhile_padded width n hstop, hlo,
    if_true, ofDigitChars_padded, List.drop_left]

theorem oneOf_cons {p : Char → Bool} {c : Char} (h : p c = true) (cs : List Char) :
    oneOf p (c :: cs) = some ((), cs) := if_pos h

/-- Up to nine digits of a fraction. -/
theorem fraction_padded {width n : Nat} (hw : 0 < width) (hw' : width ≤ 9)
    (hn : n < Number.tenTo width) (hcs : ∀ c ∈ cs.head?, c.isDigit = false) :
    fraction ('.' :: (padded width n ++ cs)) = some (n * Number.tenTo (9 - width), cs) := by
  have hlen := length_padded hw hn
  have hdigits := takeWhile_padded width n hcs
  have hne : (padded width n).isEmpty = false := by
    cases h : padded width n with
    | nil => rw [h] at hlen; exact absurd hlen (Nat.ne_of_lt hw)
    | cons => rfl
  have hnine : (padded width n).take 9 = padded width n := List.take_of_length_le (by omega)
  have hpoint : optional (· == '.') ('.' :: (padded width n ++ cs)) =
      some (true, padded width n ++ cs) := rfl
  unfold fraction
  rw [bind_of_eq hpoint, if_pos rfl]
  rw [bind_of_eq (show (get : TextReader (List Char)) (padded width n ++ cs) =
    some (padded width n ++ cs, padded width n ++ cs) from rfl)]
  simp only [hdigits, hne, hnine, hlen, ofDigitChars_padded, Bool.false_eq_true, if_false]
  show some (n * Number.tenTo (9 - width), List.drop width (padded width n ++ cs)) = _
  rw [List.drop_left' hlen]

end TextReader

/-! ## Timestamps -/

namespace Instant

variable {t : Instant}

/-- The year that an instant lies in. -/
def year (t : Instant) : Int := (Date.ofDays t.dayNumber).year

/-- A year with four digits ends before the year 10000. -/
theorem seconds_lt_of_year {t : Instant} (h : t.year ≤ 9999) : t.seconds < 253402300800 := by
  have hend := lt_yearStart_succ t.dayNumber
  have hlast : yearStart (yearOf t.dayNumber + 1) ≤ yearStart 10000 :=
    yearStart_mono (by have : yearOf t.dayNumber = t.year := rfl; omega)
  rw [show yearStart 10000 = 2932897 from by decide] at hlast
  unfold dayNumber at *
  omega

/-- What a timestamp with three fraction digits says. -/
def millisStamp (t : Instant) : Stamp where
  date := Date.ofDays t.dayNumber
  hour := t.secondOfDay / 3600
  minute := t.secondOfDay / 60 % 60
  second := t.secondOfDay % 60 + if t.isLeap then 1 else 0
  nanos := t.fraction / 1000000 * 1000000
  offset := 0

theorem secondOfDay_lt (t : Instant) : t.secondOfDay < 86400 := by
  unfold secondOfDay
  omega

theorem fraction_lt (t : Instant) : t.fraction < 1000000000 := Nat.mod_lt _ (by decide)

/-- Only the last second of a minute is followed by a leap second. -/
theorem second_of_leap (h : t.isLeap = true) : t.secondOfDay % 60 = 59 := by
  have hleap := t.leap (of_decide_eq_true h)
  unfold secondOfDay
  omega

/-- The second that is written. -/
theorem second_millisStamp (t : Instant) :
    t.millisStamp.second = if t.isLeap then 60 else t.secondOfDay % 60 := by
  show t.secondOfDay % 60 + (if t.isLeap then 1 else 0) = _
  by_cases hl : t.isLeap = true
  · rw [if_pos hl, if_pos hl, second_of_leap hl]
  · rw [if_neg hl, if_neg hl, Nat.add_zero]

theorem renderMillis_toList (t : Instant) :
    t.renderMillis.toList = yearText (t.year) ++ ('-' :: (padded 2 t.millisStamp.date.month ++
      ('-' :: (padded 2 t.millisStamp.date.day ++ ('T' :: (padded 2 t.millisStamp.hour ++
        (':' :: (padded 2 t.millisStamp.minute ++ (':' :: (padded 2 t.millisStamp.second ++
          ('.' :: (padded 3 (t.fraction / 1000000) ++ ['Z'])))))))))))) := by
  unfold renderMillis renderSeconds
  simp only [String.toList_ofList, List.append_assoc, List.cons_append]
  rfl

/-- The month and the day of a date have at most two digits. -/
theorem date_lt (n : Int) : (Date.ofDays n).month < 100 ∧ (Date.ofDays n).day < 100 := by
  obtain ⟨-, hm, -, hd⟩ := Date.valid_ofDays n
  refine ⟨by omega, Nat.lt_of_le_of_lt hd ?_⟩
  unfold daysInMonth
  split
  · decide
  · have hlen : ∀ l ∈ monthLengths (Date.ofDays n).year, l < 100 := by
      unfold monthLengths
      split <;> decide
    cases hget : (monthLengths (Date.ofDays n).year)[(Date.ofDays n).month - 1]? with
    | none => decide
    | some l => exact hlen l (List.mem_of_getElem? hget)

theorem readStamp_renderMillis (h0 : 0 ≤ t.year) (h9 : t.year ≤ 9999) :
    readStamp t.renderMillis.toList = some (t.millisStamp, []) := by
  have hmonth : t.millisStamp.date.month < 100 := (date_lt t.dayNumber).1
  have hday : t.millisStamp.date.day < 100 := (date_lt t.dayNumber).2
  have hsec := t.secondOfDay_lt
  have hfrac := t.fraction_lt
  have hsecond : t.millisStamp.second < 100 := by
    rw [second_millisStamp]
    split <;> omega
  have hyear : yearText t.year = padded 4 t.year.toNat := if_pos ⟨h0, h9⟩
  have hdigits : t.year.toNat < 10000 := by omega
  have hmillis : t.fraction / 1000000 < 1000 := by omega
  have hhour : t.millisStamp.hour < 100 := by
    show t.secondOfDay / 3600 < 100
    omega
  have hminute : t.millisStamp.minute < 100 := by
    show t.secondOfDay / 60 % 60 < 100
    omega
  rw [renderMillis_toList, hyear]
  unfold readStamp
  have hnumber {width n : Nat} (hw : 0 < width) (hn : n < Number.tenTo width) {c : Char}
      (hc : c.isDigit = false) (cs : List Char) :
      number width width (padded width n ++ c :: cs) = some (n, c :: cs) :=
    have hlen := length_padded hw hn
    number_padded (Nat.le_of_eq hlen.symm) (Nat.le_of_eq hlen) (by simpa using hc)
  rw [bind_of_eq (hnumber (by decide) hdigits rfl _), bind_of_eq (oneOf_cons rfl _),
    bind_of_eq (hnumber (by decide) hmonth rfl _), bind_of_eq (oneOf_cons rfl _),
    bind_of_eq (hnumber (by decide) hday rfl _), bind_of_eq (oneOf_cons rfl _),
    bind_of_eq (hnumber (by decide) hhour rfl _), bind_of_eq (oneOf_cons rfl _),
    bind_of_eq (hnumber (by decide) hminute rfl _), bind_of_eq (oneOf_cons rfl _),
    bind_of_eq (hnumber (by decide) hsecond rfl _),
    bind_of_eq (fraction_padded (by decide) (by decide) hmillis (by simp)),
    bind_of_eq (show offset _ ['Z'] = some (0, []) from rfl)]
  have hy : ((t.year.toNat : Nat) : Int) = t.year := Int.toNat_of_nonneg h0
  show some ((⟨⟨((t.year.toNat : Nat) : Int), _, _⟩, _, _, _, _, _⟩ : Stamp), []) = _
  rw [hy]
  rfl

/-- The years of all instants. -/
theorem year_range (t : Instant) : -262143 ≤ t.year ∧ t.year ≤ 262142 := by
  have hrange := t.inRange
  unfold minSecond maxSecond at hrange
  have hstart : yearStart t.year ≤ t.dayNumber := yearStart_yearOf_le t.dayNumber
  have hend : t.dayNumber < yearStart (t.year + 1) := lt_yearStart_succ t.dayNumber
  have hfirst : yearStart (-262143) = -96465292 := by decide
  have hlast : yearStart 262143 = 95026237 := by decide
  refine ⟨Int.not_lt.mp fun hlt => ?_, Int.not_lt.mp fun hlt => ?_⟩
  · have hmono := yearStart_mono (show t.year + 1 ≤ -262143 by omega)
    unfold dayNumber at *
    omega
  · have hmono := yearStart_mono (show 262143 ≤ t.year by omega)
    unfold dayNumber at *
    omega

/-- What a timestamp says with so many nanoseconds in the second that is written. -/
theorem instant?_withNanos (t : Instant) (n : Nat) :
    ({ t.millisStamp with nanos := n } : Stamp).instant? =
      of? t.seconds ((if t.isLeap then nanosPerSecond else 0) + n) := by
  have hsec := t.secondOfDay_lt
  have hvalid : t.millisStamp.date.Valid := Date.valid_ofDays t.dayNumber
  have hhour : t.millisStamp.hour ≤ 23 := by
    show t.secondOfDay / 3600 ≤ 23
    omega
  have hminute : t.millisStamp.minute ≤ 59 := by
    show t.secondOfDay / 60 % 60 ≤ 59
    omega
  have hsecond : t.millisStamp.second ≤ 60 ∧ min t.millisStamp.second 59 = t.secondOfDay % 60 ∧
      (t.millisStamp.second = 60 ↔ t.isLeap = true) := by
    rw [second_millisStamp]
    by_cases hl : t.isLeap = true
    · rw [if_pos hl, second_of_leap hl]
      exact ⟨Nat.le_refl _, rfl, by simp [hl]⟩
    · rw [if_neg hl]
      exact ⟨by omega, by omega, ⟨fun h => by omega, fun h => absurd h hl⟩⟩
  have hseconds : t.millisStamp.date.toDays * 86400 +
      (t.millisStamp.hour * 3600 + t.millisStamp.minute * 60 + t.secondOfDay % 60 : Nat) -
        t.millisStamp.offset = t.seconds := by
    have hdays : t.millisStamp.date.toDays = t.dayNumber := Date.toDays_ofDays t.dayNumber
    rw [hdays]
    show t.dayNumber * 86400 +
      (t.secondOfDay / 3600 * 3600 + t.secondOfDay / 60 % 60 * 60 + t.secondOfDay % 60 : Nat) - 0 =
        t.seconds
    unfold dayNumber secondOfDay
    omega
  unfold Stamp.instant?
  rw [if_pos ⟨hvalid, hhour, hminute, hsecond.1, t.year_range⟩]
  dsimp only
  simp only [hsecond.2.1, hsecond.2.2, hseconds]

/-- What a timestamp says is the instant without what is finer than a millisecond. -/
theorem instant?_millisStamp (t : Instant) : t.millisStamp.instant? = some t.floorMilli := by
  have hnanos : (if t.isLeap then nanosPerSecond else 0) + t.millisStamp.nanos =
      t.floorMilli.nanos := by
    have hn := t.nanos_lt
    show _ + t.nanos % nanosPerSecond / 1000000 * 1000000 = t.nanos / 1000000 * 1000000
    unfold isLeap nanosPerSecond
    by_cases hleap : 1000000000 ≤ t.nanos
    · rw [if_pos (decide_eq_true hleap)]
      omega
    · have hleap' : ¬ decide (1000000000 ≤ t.nanos) = true := fun h => hleap (of_decide_eq_true h)
      rw [if_neg hleap']
      omega
  have hread := instant?_withNanos t t.millisStamp.nanos
  rw [hnanos] at hread
  exact hread.trans (of?_self t.floorMilli)

/-- **A timestamp of the years 0 to 9999 reads back** but for what is finer than a millisecond. -/
theorem read?_renderMillis (h0 : 0 ≤ t.year) (h9 : t.year ≤ 9999) :
    read? t.renderMillis = some t.floorMilli := by
  unfold read? ofText?
  rw [readStamp_renderMillis h0 h9]
  exact instant?_millisStamp t

/-- What is read of a timestamp with milliseconds is written and read as it is. -/
theorem floorMilli_floorMilli (t : Instant) : t.floorMilli.floorMilli = t.floorMilli := by
  have hnanos : t.floorMilli.nanos / 1000000 * 1000000 = t.floorMilli.nanos := by
    show t.nanos / 1000000 * 1000000 / 1000000 * 1000000 = t.nanos / 1000000 * 1000000
    omega
  unfold floorMilli at hnanos ⊢
  simp only [hnanos]

/-- **A timestamp of any other year cannot be read**: its year has a sign. -/
theorem read?_renderMillis_eq_none (h : ¬ (0 ≤ t.year ∧ t.year ≤ 9999)) :
    read? t.renderMillis = none := by
  have hsign : ∃ c cs, t.renderMillis.toList = c :: cs ∧ c.isDigit = false := by
    rw [renderMillis_toList]
    unfold yearText
    rw [if_neg h]
    by_cases hneg : t.year < 0
    · rw [if_pos hneg]
      exact ⟨_, _, rfl, rfl⟩
    · rw [if_neg hneg]
      exact ⟨_, _, rfl, rfl⟩
  obtain ⟨c, cs, hlist, hdigit⟩ := hsign
  have hnumber : number 4 4 (c :: cs) = none := by
    have hnil : ((c :: cs).take 4).takeWhile Char.isDigit = [] :=
      List.takeWhile_cons_of_neg (by rw [hdigit]; exact Bool.false_ne_true)
    unfold number
    simp only [hnil]
    rfl
  unfold read? ofText? readStamp
  rw [hlist, bind_of_eq_none hnumber]

end Instant

end TaskQueue.Time
