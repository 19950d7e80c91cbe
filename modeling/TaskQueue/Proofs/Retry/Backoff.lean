import TaskQueue.Proofs.Number.Exact
import TaskQueue.Retry.Backoff

/-!
# Bounds of the backoff

A backoff over exact numbers passes four caps and a rounding: the exponent stops growing, the delay
is capped before it is spread and after, the spread is a part of the delay, and what comes out is
rounded to whole milliseconds that fit a machine word. Each of these keeps the order of two delays
and none of them leads past the largest delay, so neither does all of it.

Results:

* `backoff_le_maxBackoff`: no backoff is longer than the largest delay, however it is spread;
* `backoff_error`: only a random spread under a negative multiplier has no value;
* `backoff_bounded_monotone`: when the spread is not random and the multiplier is at least one, the
  backoff is a function of the failures that is bounded by the largest delay and never falls.
-/

namespace TaskQueue.Time.Span

/-- More milliseconds are a longer span. -/
theorem ofMillis_mono {m n : Nat} (h : m ≤ n) : ofMillis m ≤ ofMillis n := by
  show Min.min m _ * 1000000 ≤ Min.min n _ * 1000000
  omega

/-- The whole milliseconds of a span are not longer than it. -/
theorem ofMillis_le {n : Nat} {s : Span} (h : n ≤ s.millis) : ofMillis n ≤ s := by
  show Min.min n _ * 1000000 ≤ s.nanos
  simp only [millis, nanosPerMilli] at h
  omega

theorem zero_le (s : Span) : zero ≤ s := Nat.zero_le s.nanos

end TaskQueue.Time.Span

namespace TaskQueue.Retry.Policy

open Time Number Arithmetic

variable {p : Policy Rat} {draw : Draw Rat} {n : Nat} {b : Span}

theorem ceiling_nonneg : 0 ≤ p.ceiling := by simp [ceiling]

/-! ## One backoff -/

/-- The capped product of the first delay and the power of the multiplier. -/
theorem baseDelay_eq (p : Policy Rat) (n : Nat) :
    p.baseDelay n =
      min (p.initialBackoff.millis * p.multiplier ^ min (n - 1) 63) p.ceiling := by
  have hexp : Nat.min (n - 1) 63 = min (n - 1) 63 := rfl
  simp only [baseDelay, isFinite_rat, below_rat, mul_rat, ofNat_rat, pow_eq, hexp, Bool.not_true,
    Bool.false_or, decide_eq_true_eq]
  split
  · exact (min_eq_right (by linarith)).symm
  · exact (min_eq_left (by linarith)).symm

/-- The backoff that comes out of a spread. -/
def spreadOut (p : Policy Rat) (delay spread : Rat) : Span :=
  .ofMillis (round (max (min (delay + spread) p.ceiling) 0))

theorem backoff_of_jitter (hn : n ≠ 0) {spread : Rat}
    (h : p.jitter draw (p.baseDelay n) = .ok spread) :
    p.backoff draw n = .ok (p.spreadOut (p.baseDelay n) spread) := by
  simp [backoff, hn, h, spreadOut, least_eq, greatest_eq]

theorem spreadOut_le_maxBackoff (p : Policy Rat) (delay spread : Rat) :
    p.spreadOut delay spread ≤ p.maxBackoff :=
  Span.ofMillis_le (round_le (max_le (min_le_right _ _) p.ceiling_nonneg))

theorem spreadOut_mono (p : Policy Rat) {delay delay' spread spread' : Rat}
    (h : delay + spread ≤ delay' + spread') :
    p.spreadOut delay spread ≤ p.spreadOut delay' spread' :=
  Span.ofMillis_mono (round_mono (max_le_max_right 0 (min_le_min_right p.ceiling h)))

/-- No backoff is longer than the largest delay. -/
theorem backoff_le_maxBackoff (h : p.backoff draw n = .ok b) : b ≤ p.maxBackoff := by
  by_cases hn : n = 0
  · subst hn
    cases h
    exact Span.zero_le _
  · cases hspread : p.jitter draw (p.baseDelay n) with
    | error e => simp [backoff, hn, hspread] at h
    | ok spread =>
      rw [backoff_of_jitter hn hspread] at h
      cases h
      exact p.spreadOut_le_maxBackoff _ _

/-- Only a random spread under a negative multiplier has nothing to draw from. -/
theorem backoff_error {e : BackoffError} (h : p.backoff draw n = .error e) :
    p.jitterMode = .random ∧ p.multiplier < 0 := by
  by_cases hn : n = 0
  · subst hn
    cases h
  cases hmode : p.jitterMode with
  | deterministic => simp [backoff, hn, jitter, hmode] at h
  | random =>
    refine ⟨rfl, ?_⟩
    by_contra hneg
    have hpow : 0 ≤ p.multiplier ^ min (n - 1) 63 := pow_nonneg (by linarith) _
    have hdelay : 0 ≤ p.baseDelay n := by
      rw [baseDelay_eq]
      exact le_min (by positivity) p.ceiling_nonneg
    have htop : 0 ≤ clampUnit p.jitterFraction * p.baseDelay n :=
      mul_nonneg (clampUnit_nonneg _) hdelay
    have hok : ∃ spread, p.jitter draw (p.baseDelay n) = .ok spread := by
      simp only [jitter, hmode, below_rat, ofNat_rat, mul_rat, Nat.cast_zero]
      split
      · rw [if_neg (by simpa using htop)]
        exact ⟨_, rfl⟩
      · exact ⟨_, rfl⟩
    obtain ⟨spread, hspread⟩ := hok
    rw [backoff_of_jitter hn hspread] at h
    cases h

/-! ## One failure more -/

/-- A multiplier of one or more does not let the capped delay fall. -/
theorem baseDelay_mono (hmult : 1 ≤ p.multiplier) {m n : Nat} (h : m ≤ n) :
    p.baseDelay m ≤ p.baseDelay n := by
  rw [baseDelay_eq, baseDelay_eq]
  have hpow : p.multiplier ^ min (m - 1) 63 ≤ p.multiplier ^ min (n - 1) 63 :=
    pow_le_pow_right₀ hmult (by omega)
  exact min_le_min_right _ (mul_le_mul_of_nonneg_left hpow (Nat.cast_nonneg _))

/-- How long a task waits after so many failures when nothing is drawn at random. -/
def steadyDelay (p : Policy Rat) (n : Nat) : Span :=
  if n = 0 then .zero
  else p.spreadOut (p.baseDelay n) (1 / 2 * clampUnit p.jitterFraction * p.baseDelay n)

theorem backoff_eq_steadyDelay (hmode : p.jitterMode = .deterministic) (draw : Draw Rat)
    (n : Nat) : p.backoff draw n = .ok (p.steadyDelay n) := by
  by_cases hn : n = 0
  · subst hn
    rfl
  · rw [steadyDelay, if_neg hn]
    exact backoff_of_jitter hn (by simp [jitter, hmode])

theorem steadyDelay_mono (hmult : 1 ≤ p.multiplier) {m n : Nat} (h : m ≤ n) :
    p.steadyDelay m ≤ p.steadyDelay n := by
  by_cases hm : m = 0
  · rw [steadyDelay, if_pos hm]
    exact Span.zero_le _
  · have hn : n ≠ 0 := by omega
    rw [steadyDelay, steadyDelay, if_neg hm, if_neg hn]
    apply spreadOut_mono
    have hbase := baseDelay_mono hmult h
    have hpart : 1 / 2 * clampUnit p.jitterFraction * p.baseDelay m ≤
        1 / 2 * clampUnit p.jitterFraction * p.baseDelay n :=
      mul_le_mul_of_nonneg_left hbase (by linarith [clampUnit_nonneg p.jitterFraction])
    linarith

/-- **The backoff is bounded and never falls.** When nothing is drawn at random and the multiplier
is at least one, every number of failures has a backoff. It does not depend on the draw, it is no
longer than the largest delay, and it is no shorter than the backoff of any smaller number of
failures. -/
theorem backoff_bounded_monotone (p : Policy Rat) (hmode : p.jitterMode = .deterministic)
    (hmult : 1 ≤ p.multiplier) :
    ∃ delay : Nat → Span, (∀ draw n, p.backoff draw n = .ok (delay n)) ∧
      (∀ n, delay n ≤ p.maxBackoff) ∧ ∀ m n, m ≤ n → delay m ≤ delay n :=
  ⟨p.steadyDelay, backoff_eq_steadyDelay hmode,
    fun n => backoff_le_maxBackoff (backoff_eq_steadyDelay hmode id n),
    fun _ _ h => steadyDelay_mono hmult h⟩

/-- A first delay above the largest one, and a largest one that is not whole milliseconds. -/
def capped : Policy Rat :=
  ⟨3, .ofSeconds 9, ⟨2000500000, by decide⟩, 3 / 2, 1 / 3, .deterministic, [], []⟩

theorem backoff_capped :
    capped.jitterMode = .deterministic ∧ 1 ≤ capped.multiplier ∧
      ∃ delay : Nat → Span, (∀ draw n, capped.backoff draw n = .ok (delay n)) ∧
        (∀ n, delay n ≤ capped.maxBackoff) ∧ ∀ m n, m ≤ n → delay m ≤ delay n := by
  have hmult : 1 ≤ capped.multiplier := by norm_num [capped]
  exact ⟨rfl, hmult, backoff_bounded_monotone capped rfl hmult⟩

end TaskQueue.Retry.Policy
