import TaskQueue.Number.Double

/-!
# Decimal numbers as they are read

A reader makes a double of `digits · 10 ^ power` in three roundings: of the digits, of the power of
ten, and of their product or quotient. Up to 2⁵³ and 10²² the first two change nothing, and the
result is the nearest double; elsewhere it may be a neighbour of it.

Results:

* `times?_comm`: a product does not depend on the order of its factors;
* `scaled?_zero`: zero has no power.
-/

namespace TaskQueue.Number.Double

/-- The numerator of the magnitude of a finite double. -/
def numerator (x : Double) : Nat := x.significand * twoTo x.exponent.toNat

/-- The denominator of the magnitude of a finite double. -/
def denominator (x : Double) : Nat := twoTo (-x.exponent).toNat

/-- The double nearest to the product of two finite ones; none beyond the largest. -/
def times? (a b : Double) : Option Double :=
  ofRatio? (a.isNegative != b.isNegative) (a.numerator * b.numerator)
    (a.denominator * b.denominator)

/-- The double nearest to the quotient of two finite ones, of which the second is not zero; none
beyond the largest. -/
def over? (a b : Double) : Option Double :=
  ofRatio? (a.isNegative != b.isNegative) (a.numerator * b.denominator)
    (a.denominator * b.numerator)

theorem times?_comm (a b : Double) : a.times? b = b.times? a := by
  simp only [times?, Nat.mul_comm a.numerator, Nat.mul_comm a.denominator,
    bne_comm (a := a.isNegative)]

/-- The greatest power of ten among the doubles. -/
def maxPower : Nat := 308

/-- The double nearest to a power of ten. -/
def powerOfTen? (n : Nat) : Option Double := ofRatio? false (tenTo n) 1

/-- The double that is read for `digits · 10 ^ power`; none beyond the largest. What is too small to
be divided at once is divided by 10³⁰⁸ first, and what is too small after that is zero. -/
def scaled? (negative : Bool) (digits : Nat) (power : Int) : Option Double := do
  let x ← ofRatio? negative digits 1
  if digits = 0 then return x
  if (maxPower : Int) < power then none
  else if 0 ≤ power then x.times? (← powerOfTen? power.toNat)
  else if -(maxPower : Int) ≤ power then x.over? (← powerOfTen? (-power).toNat)
  else if -2 * (maxPower : Int) ≤ power then
    (← x.over? (← powerOfTen? maxPower)).over? (← powerOfTen? (-power - maxPower).toNat)
  else return zero negative

theorem scaled?_zero (negative : Bool) (power : Int) :
    scaled? negative 0 power = some (zero negative) := by
  simp [scaled?, ofRatio?]

end TaskQueue.Number.Double
