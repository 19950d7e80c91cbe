import Mathlib.Algebra.Order.Ring.Basic
import TaskQueue.Proofs.Retry.Backoff

/-!
# Random jitter

A random spread is drawn between zero and a part of the delay. When the delay lies below zero that
range is empty, and there is no backoff. A delay lies below zero when the multiplier does and is
taken to an odd power, which is so after every second failure, and after each one from the
sixty-fifth on, where the power stays at 63. In all other cases the draw shows in the backoff
between the delay itself and the delay spread as far as the fraction allows.

Results:

* `plainDelay_neg_iff`: when the delay lies below zero;
* `backoff_error_iff`: when there is no backoff;
* `backoff_in_band`: there is one in all other cases, up to the largest delay and within the band;
* `nothing_to_draw_from`: a policy that has none after the second failure.
-/

namespace TaskQueue.Number.Arithmetic

theorem clampUnit_of_nonneg {a : Rat} (h : 0 ≤ a) : clampUnit a = min a 1 := by
  have hle : ¬ a < 0 := by linarith
  simp only [clampUnit, below_rat, ofNat_rat, Nat.cast_zero, Nat.cast_one, decide_eq_true_eq,
    if_neg hle]
  split
  · exact (min_eq_right (by linarith)).symm
  · exact (min_eq_left (by linarith)).symm

theorem clampUnit_pos_iff {a : Rat} : 0 < clampUnit a ↔ 0 < a := by
  by_cases h : a < 0
  · have hzero : clampUnit a = 0 := by simp [clampUnit, h]
    rw [hzero]
    exact iff_of_false (lt_irrefl 0) (by linarith)
  · rw [clampUnit_of_nonneg (by linarith), lt_min_iff]
    exact and_iff_left one_pos

end TaskQueue.Number.Arithmetic

namespace TaskQueue.Retry

open Time Number Arithmetic

/-- From the upper end of a range that starts at zero, the draw takes a point of the range. -/
def FromRange (draw : Draw Rat) : Prop := ∀ top, 0 ≤ top → 0 ≤ draw top ∧ draw top ≤ top

namespace Policy

variable {p : Policy Rat} {draw : Draw Rat} {n : Nat}

/-! ## The delay without jitter -/

/-- The delay in milliseconds without jitter: the first one, multiplied for every further failure up
to the sixty-fourth, and capped. -/
def plainDelay (p : Policy Rat) (n : Nat) : Rat :=
  min (p.initialBackoff.millis * p.multiplier ^ min (n - 1) 63) p.maxBackoff.millis

theorem baseDelay_eq_plainDelay (p : Policy Rat) (n : Nat) : p.baseDelay n = p.plainDelay n :=
  baseDelay_eq p n

theorem plainDelay_le (p : Policy Rat) (n : Nat) : p.plainDelay n ≤ p.ceiling := min_le_right _ _

/-- The exponent is odd after every second failure, and stays at 63. -/
theorem odd_exponent_iff : Odd (min (n - 1) 63) ↔ 0 < n ∧ (n % 2 = 0 ∨ 64 < n) := by
  rw [Nat.odd_iff]
  omega

/-- **When the delay lies below zero**: a negative multiplier is taken to an odd power. -/
theorem plainDelay_neg_iff : p.plainDelay n < 0 ↔
    0 < p.initialBackoff.millis ∧ p.multiplier < 0 ∧ 0 < n ∧ (n % 2 = 0 ∨ 64 < n) := by
  have hmax : ¬ ((p.maxBackoff.millis : Rat) < 0) := not_lt.mpr (Nat.cast_nonneg _)
  have hinitial : ¬ ((p.initialBackoff.millis : Rat) < 0) := not_lt.mpr (Nat.cast_nonneg _)
  have hpow : p.multiplier ^ min (n - 1) 63 < 0 ↔
      p.multiplier < 0 ∧ Odd (min (n - 1) 63) := by
    rcases Nat.even_or_odd (min (n - 1) 63) with heven | hodd
    · exact iff_of_false (not_lt.mpr (heven.pow_nonneg _))
        fun h => (Nat.not_even_iff_odd.mpr h.2) heven
    · rw [hodd.pow_neg_iff, and_iff_left hodd]
  rw [plainDelay, min_lt_iff, or_iff_left hmax, mul_neg_iff, ← odd_exponent_iff, ← hpow]
  simp only [hinitial, false_and, or_false, Nat.cast_pos]

/-! ## The spread -/

/-- A random spread has nothing to draw from when the delay lies below zero. -/
theorem jitter_error_iff {delay : Rat} : p.jitter draw delay = .error .emptyRange ↔
    p.jitterMode = .random ∧ 0 < p.jitterFraction ∧ delay < 0 := by
  cases hmode : p.jitterMode with
  | deterministic => simp [jitter, hmode]
  | random =>
    by_cases hpos : 0 < clampUnit p.jitterFraction
    · have htop : clampUnit p.jitterFraction * delay < 0 ↔ delay < 0 := by
        rw [mul_neg_iff]
        simp only [hpos, true_and, not_lt.mpr hpos.le, false_and, or_false]
      simp [jitter, hmode, hpos, htop, clampUnit_pos_iff.mp hpos]
    · simp [jitter, hmode, hpos, mt clampUnit_pos_iff.mpr hpos]

/-- What is drawn lies between zero and the part of the delay that the fraction names. -/
theorem jitter_drawn (hdraw : FromRange draw) {delay spread : Rat}
    (hmode : p.jitterMode = .random) (hpos : 0 < p.jitterFraction)
    (h : p.jitter draw delay = .ok spread) :
    0 ≤ spread ∧ spread ≤ min p.jitterFraction 1 * delay := by
  have hclamp := clampUnit_pos_iff.mpr hpos
  rw [← clampUnit_of_nonneg hpos.le]
  simp only [jitter, hmode, below_rat, ofNat_rat, mul_rat, Nat.cast_zero, hclamp, decide_true,
    if_true, decide_eq_true_eq] at h
  split at h
  · cases h
  · next htop =>
    obtain rfl := Except.ok.inj h
    exact hdraw _ (not_lt.mp htop)

/-! ## The backoff -/

/-- There is nothing to draw from: the spread is random, and a negative multiplier is taken to an
odd power. -/
structure NothingToDraw (p : Policy Rat) (n : Nat) : Prop where
  random : p.jitterMode = .random
  spread : 0 < p.jitterFraction
  initial : 0 < p.initialBackoff.millis
  negative : p.multiplier < 0
  failures : 0 < n ∧ (n % 2 = 0 ∨ 64 < n)

/-- **When there is no backoff**: exactly when there is nothing to draw from. -/
theorem backoff_error_iff :
    p.backoff draw n = .error .emptyRange ↔ p.NothingToDraw n := by
  have hnothing : p.NothingToDraw n ↔
      p.jitterMode = .random ∧ 0 < p.jitterFraction ∧ p.plainDelay n < 0 := by
    rw [plainDelay_neg_iff]
    exact ⟨fun ⟨h₁, h₂, h₃, h₄, h₅⟩ => ⟨h₁, h₂, h₃, h₄, h₅⟩,
      fun ⟨h₁, h₂, h₃, h₄, h₅⟩ => ⟨h₁, h₂, h₃, h₄, h₅⟩⟩
  by_cases hn : n = 0
  · subst hn
    exact iff_of_false (by simp) fun h => absurd h.failures.1 (Nat.lt_irrefl 0)
  · have hjitter : p.jitter draw (p.baseDelay n) = .error .emptyRange ↔
        p.jitterMode = .random ∧ 0 < p.jitterFraction ∧ p.baseDelay n < 0 := jitter_error_iff
    rw [hnothing, ← baseDelay_eq_plainDelay, ← hjitter]
    cases hspread : p.jitter draw (p.baseDelay n) with
    | error e =>
      cases e
      simp [backoff, hn, hspread]
    | ok spread => simp [backoff_of_jitter hn hspread]

/-- Who would have to wait less than no time does not wait. -/
theorem spreadOut_of_nonpos (p : Policy Rat) {delay spread : Rat} (h : delay + spread ≤ 0) :
    p.spreadOut delay spread = .zero := by
  have hzero : max (min (delay + spread) p.ceiling) 0 = 0 :=
    max_eq_right ((min_le_left _ _).trans h)
  rw [spreadOut, hzero]
  decide +kernel

/-- **The band of a random backoff**: from the delay to the delay spread as far as the fraction
allows, each in whole milliseconds. -/
structure InBand (p : Policy Rat) (n : Nat) (d : Span) : Prop where
  lower : .ofMillis (round (p.plainDelay n)) ≤ d
  upper : d ≤ .ofMillis
    (round (min (p.plainDelay n * (1 + min p.jitterFraction 1)) p.maxBackoff.millis))

theorem spreadOut_inBand {spread : Rat} (hdelay : 0 ≤ p.plainDelay n) (hspread : 0 ≤ spread)
    (hle : spread ≤ min p.jitterFraction 1 * p.plainDelay n) :
    p.InBand n (p.spreadOut (p.plainDelay n) spread) where
  lower := Span.ofMillis_mono (round_mono
    (le_max_of_le_left (le_min (by linarith) (p.plainDelay_le n))))
  upper := by
    refine Span.ofMillis_mono (round_mono (max_le ?_ (le_min ?_ (Nat.cast_nonneg _))))
    · exact min_le_min_right _ (by linarith)
    · linarith

/-- **A backoff has a value unless there is nothing to draw from**, whatever the numbers of the
policy are. It is no longer than the largest delay, and a random one lies within its band. -/
theorem backoff_in_band (p : Policy Rat) (hdraw : FromRange draw) (n : Nat) :
    (p.backoff draw n = .error .emptyRange ↔ p.NothingToDraw n) ∧
      (¬ p.NothingToDraw n → ∃ d, p.backoff draw n = .ok d ∧ .zero ≤ d ∧ d ≤ p.maxBackoff ∧
        (p.jitterMode = .random → 0 < p.jitterFraction → 1 ≤ n → 0 ≤ p.plainDelay n →
          p.InBand n d)) := by
  refine ⟨backoff_error_iff, fun hsome => ?_⟩
  cases hd : p.backoff draw n with
  | error e =>
    cases e
    exact absurd (backoff_error_iff.mp hd) hsome
  | ok d =>
    refine ⟨d, rfl, Span.zero_le d, backoff_le_maxBackoff hd, fun hmode hpos hn hdelay => ?_⟩
    have hn : n ≠ 0 := by omega
    cases hspread : p.jitter draw (p.baseDelay n) with
    | error e => simp [backoff, hn, hspread] at hd
    | ok spread =>
      obtain ⟨hnonneg, hle⟩ := jitter_drawn hdraw hmode hpos hspread
      rw [backoff_of_jitter hn hspread] at hd
      obtain rfl := Except.ok.inj hd
      rw [baseDelay_eq_plainDelay] at hle ⊢
      exact spreadOut_inBand hdelay hnonneg hle

/-- A delay that changes its sign with every failure, spread at random. -/
def swinging : Policy Rat := ⟨9, .ofSeconds 1, .ofSeconds 60, -2, 1 / 2, .random, [], []⟩

/-- Draws the middle of the range. -/
def middle : Draw Rat := fun top => top / 2

theorem middle_fromRange : FromRange middle := by
  intro top htop
  unfold middle
  constructor <;> linarith

/-- After the third failure the delay of four seconds is spread up to six. -/
theorem swinging_in_band :
    FromRange middle ∧ ∃ d, swinging.backoff middle 3 = .ok d ∧ .zero ≤ d ∧
      d ≤ swinging.maxBackoff ∧ .ofMillis 4000 ≤ d ∧ d ≤ .ofMillis 6000 := by
  have hsome : ¬ swinging.NothingToDraw 3 := fun h => absurd h.failures (by decide)
  have hplain : swinging.plainDelay 3 = 4000 := by
    have hmillis : swinging.initialBackoff.millis = 1000 ∧ swinging.maxBackoff.millis = 60000 := by
      decide
    rw [plainDelay, hmillis.1, hmillis.2]
    norm_num [swinging]
  obtain ⟨d, hd, hzero, hmax, hband⟩ :=
    (backoff_in_band swinging middle_fromRange 3).2 hsome
  have hin := hband rfl (by norm_num [swinging]) (by decide) (by rw [hplain]; norm_num)
  refine ⟨middle_fromRange, d, hd, hzero, hmax, ?_, ?_⟩
  · have hlower := hin.lower
    rwa [hplain, show Arithmetic.round (4000 : Rat) = 4000 from by decide +kernel] at hlower
  · have hupper := hin.upper
    have htop : min ((4000 : Rat) * (1 + min swinging.jitterFraction 1))
        swinging.maxBackoff.millis = 6000 := by
      rw [show swinging.maxBackoff.millis = 60000 from by decide]
      norm_num [swinging]
    rwa [hplain, htop, show Arithmetic.round (6000 : Rat) = 6000 from by decide +kernel] at hupper

/-- **A policy without a backoff**: after the second failure there is nothing to draw from. Without
chance the same policy waits not at all. -/
theorem nothing_to_draw_from :
    FromRange middle ∧ swinging.backoff middle 2 = .error .emptyRange ∧
      ({ swinging with jitterMode := .deterministic } : Policy Rat).backoff middle 2 =
        .ok .zero := by
  refine ⟨middle_fromRange, backoff_error_iff.mpr ⟨rfl, ?_, by decide, ?_, by decide⟩, ?_⟩
  · norm_num [swinging]
  · norm_num [swinging]
  · have hneg : swinging.plainDelay 2 < 0 :=
      plainDelay_neg_iff.mpr ⟨by decide, by norm_num [swinging], by decide⟩
    rw [backoff_eq_steadyDelay rfl, steadyDelay, if_neg (by decide), baseDelay_eq_plainDelay]
    refine congrArg _ (spreadOut_of_nonpos _ ?_)
    have hpart := clampUnit_nonneg swinging.jitterFraction
    change swinging.plainDelay 2 + 1 / 2 * clampUnit swinging.jitterFraction *
      swinging.plainDelay 2 ≤ 0
    nlinarith

end Policy

end TaskQueue.Retry
