import Mathlib.Algebra.Order.Field.Rat
import Mathlib.Algebra.Order.Ring.Pow
import Mathlib.Data.Rat.Floor
import TaskQueue.Number.Arithmetic

/-!
# The formulas over exact numbers

What the operations for delays are over the rational numbers, where no digit is lost: the power by
repeated squaring is the power, the smaller and the larger number are `min` and `max`, and the
rounding is monotone and does not pass a whole number.

Results:

* `pow_eq`: repeated squaring gives the power;
* `clampUnit_nonneg`: a clamped number is not negative;
* `round_mono`, `round_le`: rounding keeps the order and whole bounds.
-/

namespace TaskQueue.Number.Arithmetic

@[simp] theorem below_rat (a b : Rat) : below a b = decide (a < b) := rfl

@[simp] theorem add_rat (a b : Rat) : add a b = a + b := rfl

@[simp] theorem mul_rat (a b : Rat) : mul a b = a * b := rfl

@[simp] theorem half_rat : (half : Rat) = 1 / 2 := rfl

@[simp] theorem ofNat_rat (n : Nat) : (ofNat n : Rat) = n := rfl

@[simp] theorem isFinite_rat (a : Rat) : isFinite a = true := rfl

theorem least_eq (a b : Rat) : least a b = min a b := by
  have h : least a b = if b < a then b else a := by simp [least, isNaN]
  rw [h]
  split
  · exact (min_eq_right (by linarith)).symm
  · exact (min_eq_left (by linarith)).symm

theorem greatest_eq (a b : Rat) : greatest a b = max a b := by
  have h : greatest a b = if a < b then b else a := by simp [greatest, isNaN]
  rw [h]
  split
  · exact (max_eq_right (by linarith)).symm
  · exact (max_eq_left (by linarith)).symm

/-- The squarings multiply the start by the power. -/
theorem powFrom_eq (r a : Rat) (n : Nat) : powFrom r a n = r * a ^ n := by
  induction r, a, n using powFrom.induct with
  | case1 r a => simp [powFrom]
  | case2 r a n hn ih =>
    have hhalf : (a * a) ^ (n / 2) * a ^ (n % 2) = a ^ n := by
      rw [← sq, ← pow_mul, ← pow_add, Nat.div_add_mod]
    simp only [dite_eq_ite] at ih
    rw [powFrom, if_neg hn, ih, mul_rat, ← hhalf]
    rcases Nat.mod_two_eq_zero_or_one n with h | h
    · simp [h]
    · simp only [h, if_true, mul_rat, pow_one]
      ring

/-- Repeated squaring gives the power. -/
theorem pow_eq (a : Rat) (n : Nat) : pow a n = a ^ n := by simp [pow, powFrom_eq]

/-! ## Clamping -/

theorem clampUnit_nonneg (a : Rat) : 0 ≤ clampUnit a := by
  unfold clampUnit
  split
  · simp
  · split <;> simp_all

/-! ## Rounding -/

theorem round_rat (a : Rat) : round a = min (a + 1 / 2).floor.toNat maxRounded := rfl

/-- Rounding keeps the order. -/
theorem round_mono {a b : Rat} (h : a ≤ b) : round a ≤ round b := by
  have hfloor : (a + 1 / 2).floor ≤ (b + 1 / 2).floor := Rat.floor_monotone (by linarith)
  rw [round_rat, round_rat]
  omega

/-- Rounding does not pass a whole number. -/
theorem round_le {a : Rat} {n : Nat} (h : a ≤ n) : round a ≤ n := by
  have hfloor : (a + 1 / 2).floor < (n : Int) + 1 := by
    rw [Rat.floor_lt_iff]
    push_cast
    linarith
  rw [round_rat]
  omega

end TaskQueue.Number.Arithmetic
