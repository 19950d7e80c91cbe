import TaskQueue.Time.Instant

/-!
# Instants and their minutes

Adding whole seconds moves an instant by that many seconds, and a leap second is left on the way.
Truncation to the minute keeps the minute. It reaches the start of the minute for an instant that is
`Plain`: neither a leap second nor beyond the stamps of 64 bits.

Results:

* `add?_seconds`: what adding whole seconds gives;
* `seconds_of_add?`: the second that any move forward ends in;
* `nextMinute`, `nextMinute_plain`: the instant one minute after the truncated one.
-/

namespace TaskQueue.Time.Instant

variable {t u n : Instant} {k : Int}

/-- The start of a minute. -/
def Whole (t : Instant) : Prop := t.seconds % 60 = 0 ∧ t.nanos = 0

instance (t : Instant) : Decidable t.Whole := inferInstanceAs (Decidable (_ ∧ _))

theorem zero_lt_nanos : 0 < 2000000000 := by decide

/-- The start of a second. -/
def atSecond (s : Int) (h : minSecond ≤ s ∧ s ≤ maxSecond) : Instant :=
  ⟨s, 0, h, zero_lt_nanos, fun hleap => absurd hleap (by decide)⟩

/-- No leap second, and its nanoseconds since 1970 fit in 64 signed bits. -/
structure Plain (t : Instant) : Prop where
  lower : -9223372036854775808 ≤ t.seconds * (nanosPerSecond : Int) + t.nanos
  upper : t.seconds * (nanosPerSecond : Int) + t.nanos < 9223372036854775808
  no_leap : t.nanos < nanosPerSecond

instance (t : Instant) : Decidable t.Plain :=
  decidable_of_iff (_ ∧ _ ∧ _) ⟨fun h => ⟨h.1, h.2.1, h.2.2⟩, fun h => ⟨h.1, h.2, h.3⟩⟩

/-! ## Order -/

theorem lt_of_le_of_lt (h : t ≤ u) (h' : u < n) : t < n := by
  rw [le_def] at h
  rw [lt_def] at h' ⊢
  omega

theorem le_of_lt (h : t < u) : t ≤ u := by
  rw [lt_def] at h
  rw [le_def]
  omega

/-! ## Whole seconds -/

theorem of?_isSome {s : Int} {m : Nat} (h : minSecond ≤ s ∧ s ≤ maxSecond)
    (hm : m < nanosPerSecond) :
    (of? s m).isSome = true := by
  unfold nanosPerSecond at hm
  unfold of?
  rw [dif_pos ⟨h, by omega, fun hleap => by omega⟩]
  rfl

/-- Adding whole seconds: a leap second counts as the second before it. -/
theorem add?_seconds (hk : 0 < k) :
    t.add? (k * nanosPerSecond) = of? (t.seconds + k) (t.nanos % nanosPerSecond) := by
  have hn := t.nanos_lt
  unfold add? isLeap nanosPerSecond
  by_cases hleap : 1000000000 ≤ t.nanos
  · have hdiv : (k * (1000000000 : Nat)).tdiv (1000000000 : Nat) ≠ 0 := by
      rw [Int.mul_tdiv_cancel _ (by decide)]
      omega
    have hpos : 0 < k * (1000000000 : Nat) := by omega
    simp only [decide_eq_true hleap, if_true, hdiv, false_and, if_false, hpos]
    congr 1 <;> omega
  · simp only [decide_eq_false hleap, Bool.false_eq_true, if_false]
    congr 1 <;> omega

/-- The second of the clock so many nanoseconds on. A leap second counts as the second before it. -/
theorem seconds_of_add? {n : Nat} (h : t.add? n = some u) :
    u.seconds = t.seconds + ((t.nanos % nanosPerSecond + n) / nanosPerSecond : Nat) := by
  have hn := t.nanos_lt
  unfold add? isLeap nanosPerSecond at h
  unfold nanosPerSecond
  by_cases hleap : 1000000000 ≤ t.nanos
  · have hdiv : ((n : Int).tdiv (1000000000 : Nat) = 0) ↔ n < 1000000000 := by
      rw [Int.tdiv_eq_ediv_of_nonneg (by omega)]
      omega
    simp only [decide_eq_true hleap, if_true, hdiv] at h
    split at h
    · obtain ⟨hs, -⟩ := of?_eq_some h
      omega
    · split at h <;> obtain ⟨hs, -⟩ := of?_eq_some h <;> omega
  · simp only [decide_eq_false hleap, Bool.false_eq_true, if_false] at h
    obtain ⟨hs, -⟩ := of?_eq_some h
    omega

/-- A move forward that ends before the last second is an instant. -/
theorem add?_isSome {n : Nat}
    (h : t.seconds + ((t.nanos % nanosPerSecond + n) / nanosPerSecond : Nat) ≤ maxSecond) :
    (t.add? n).isSome = true := by
  have hn := t.nanos_lt
  have hlo := t.inRange.1
  have hleap := t.leap
  unfold nanosPerSecond at h
  unfold add? isLeap nanosPerSecond
  by_cases hle : 1000000000 ≤ t.nanos
  · have hdiv : ((n : Int).tdiv (1000000000 : Nat) = 0) ↔ n < 1000000000 := by
      rw [Int.tdiv_eq_ediv_of_nonneg (by omega)]
      omega
    simp only [decide_eq_true hle, if_true, hdiv]
    split
    · unfold of?
      rw [dif_pos ⟨t.inRange, by omega, fun _ => hleap hle⟩]
      rfl
    · have hpos : (0 : Int) < n := by omega
      rw [if_pos hpos]
      exact of?_isSome (by omega) (by unfold nanosPerSecond; omega)
  · simp only [decide_eq_false hle, Bool.false_eq_true, if_false]
    exact of?_isSome (by omega) (by unfold nanosPerSecond; omega)

/-! ## Truncation -/

theorem floorMinute_of_plain (h : t.Plain) :
    t.floorMinute.seconds = t.minuteNumber * 60 ∧ t.floorMinute.nanos = 0 := by
  obtain ⟨hlo, hhi, hleap⟩ := h
  unfold floorMinute minuteNumber
  rw [if_pos ⟨hlo, hhi⟩]
  unfold nanosPerSecond at *
  have hadd : t.add? (-((t.seconds * (1000000000 : Nat) + t.nanos) % (60 * (1000000000 : Nat)))) =
      of? (t.seconds / 60 * 60) 0 := by
    unfold add? isLeap nanosPerSecond
    simp only [decide_eq_false (Nat.not_le.mpr hleap), Bool.false_eq_true, if_false]
    congr 1 <;> omega
  have hrange : minSecond ≤ t.seconds / 60 * 60 ∧ t.seconds / 60 * 60 ≤ maxSecond := by
    unfold minSecond maxSecond
    omega
  obtain ⟨f, hf⟩ := Option.isSome_iff_exists.mp (of?_isSome hrange (m := 0) (by decide))
  rw [hadd, hf]
  exact of?_eq_some hf

/-- A leap second is truncated to its own start. -/
theorem floorMinute_of_leap (h : nanosPerSecond ≤ t.nanos) : t.floorMinute.seconds = t.seconds := by
  have hn := t.nanos_lt
  have hsec := t.leap h
  unfold floorMinute
  by_cases hfit : -9223372036854775808 ≤ t.seconds * (nanosPerSecond : Int) + t.nanos ∧
      t.seconds * (nanosPerSecond : Int) + t.nanos < 9223372036854775808
  · rw [if_pos hfit]
    unfold nanosPerSecond at *
    have hpast : (t.seconds * (1000000000 : Nat) + t.nanos) % (60 * (1000000000 : Nat)) =
        (t.nanos : Int) - 1000000000 := by
      omega
    have hadd : t.add? (-((t.nanos : Int) - 1000000000)) = of? t.seconds 1000000000 := by
      have hdiv : (-((t.nanos : Int) - 1000000000)).tdiv (1000000000 : Nat) = 0 := by
        rw [Int.neg_tdiv, Int.tdiv_eq_zero_of_lt (by omega) (by omega)]
        rfl
      unfold add? isLeap nanosPerSecond
      simp only [decide_eq_true h, if_true, hdiv, true_and]
      rw [if_pos (.inl (by omega))]
      congr 1
      omega
    rw [hpast, hadd]
    cases hf : of? t.seconds 1000000000 with
    | none => rfl
    | some f => exact (of?_eq_some hf).1
  · rw [if_neg hfit]

/-- Truncation stays within the minute. -/
theorem floorMinute_minuteNumber (t : Instant) : t.floorMinute.minuteNumber = t.minuteNumber := by
  by_cases hleap : nanosPerSecond ≤ t.nanos
  · unfold minuteNumber
    rw [floorMinute_of_leap hleap]
  · by_cases hfit : -9223372036854775808 ≤ t.seconds * (nanosPerSecond : Int) + t.nanos ∧
        t.seconds * (nanosPerSecond : Int) + t.nanos < 9223372036854775808
    · have hplain := floorMinute_of_plain ⟨hfit.1, hfit.2, Nat.not_le.mp hleap⟩
      unfold minuteNumber at *
      omega
    · unfold floorMinute
      rw [if_neg hfit]

/-! ## The next minute -/

/-- One minute after the truncated instant lies in the next minute. -/
theorem nextMinute (h : t.floorMinute.add? (60 * nanosPerSecond) = some n) :
    n.minuteNumber = t.minuteNumber + 1 ∧ n.nanos < nanosPerSecond := by
  have hmin := floorMinute_minuteNumber t
  rw [add?_seconds (by decide)] at h
  obtain ⟨hsec, hnanos⟩ := of?_eq_some h
  refine ⟨?_, ?_⟩
  · unfold minuteNumber at *
    omega
  · rw [hnanos]
    exact Nat.mod_lt _ (by decide)

/-- For a plain instant it is the start of the next minute. -/
theorem nextMinute_plain (hp : t.Plain) (h : t.floorMinute.add? (60 * nanosPerSecond) = some n) :
    n.Whole := by
  obtain ⟨hfloor, hzero⟩ := floorMinute_of_plain hp
  rw [add?_seconds (by decide)] at h
  obtain ⟨hsec, hnanos⟩ := of?_eq_some h
  refine ⟨?_, ?_⟩
  · omega
  · rw [hnanos, hzero]
    rfl

end TaskQueue.Time.Instant
