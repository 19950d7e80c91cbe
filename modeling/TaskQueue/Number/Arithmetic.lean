import TaskQueue.Number.Double

/-!
# Arithmetic for delays

The operations that a backoff is computed with, over any kind of number. Machine doubles run;
rational numbers read the same formula exactly.
-/

namespace TaskQueue.Number

/-- Numbers that a delay can be computed with. -/
class Arithmetic (ν : Type) where
  /-- A whole number, rounded to the nearest when it has none of its own. -/
  ofNat : Nat → ν
  /-- One half. -/
  half : ν
  add : ν → ν → ν
  mul : ν → ν → ν
  /-- Strictly smaller; false when either is no number. -/
  below : ν → ν → Bool
  /-- Neither infinite nor no number. -/
  isFinite : ν → Bool
  /-- No number at all. -/
  isNaN : ν → Bool
  /-- The nearest whole number, a half going up; 0 for negative ones and for what is no number, and
  2⁶⁴ − 1 at most. -/
  round : ν → Nat

namespace Arithmetic

variable {ν : Type} [Arithmetic ν]

/-- The smaller number; what is no number gives way. -/
def least (a b : ν) : ν :=
  if isNaN a then b else if isNaN b then a else if below b a then b else a

/-- The larger number; what is no number gives way. -/
def greatest (a b : ν) : ν :=
  if isNaN a then b else if isNaN b then a else if below a b then b else a

/-- Keeps a number between 0 and 1. What is no number stays. -/
def clampUnit (a : ν) : ν :=
  if below a (ofNat 0) then ofNat 0 else if below (ofNat 1) a then ofNat 1 else a

/-- `r · a ^ n` by repeated squaring. -/
def powFrom (r a : ν) (n : Nat) : ν :=
  if n = 0 then r
  else powFrom (if n % 2 = 1 then mul r a else r) (mul a a) (n / 2)
termination_by n
decreasing_by omega

/-- `a ^ n` by repeated squaring. -/
def pow (a : ν) (n : Nat) : ν := powFrom (ofNat 1) a n

end Arithmetic

/-- The largest number of 64 bits. -/
def maxRounded : Nat := 18446744073709551615

instance : Arithmetic Double where
  ofNat n := ((Double.ofRatio? false n 1).getD ⟨0x7FF0000000000000⟩)
  half := ⟨0x3FE0000000000000⟩
  add a b := .ofFloat (a.toFloat + b.toFloat)
  mul a b := .ofFloat (a.toFloat * b.toFloat)
  below a b := a.toFloat < b.toFloat
  isFinite := Double.isFinite
  isNaN := Double.isNaN
  round a := a.toFloat.round.toUInt64.toNat

instance : Arithmetic Rat where
  ofNat n := n
  half := 1 / 2
  add := (· + ·)
  mul := (· * ·)
  below a b := a < b
  isFinite _ := true
  isNaN _ := false
  round a := min (a + 1 / 2).floor.toNat maxRounded

end TaskQueue.Number
