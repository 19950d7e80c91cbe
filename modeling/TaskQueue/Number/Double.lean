import TaskQueue.Number.Power

/-!
# Doubles

Floating-point numbers of 64 bits, given by their bits: a sign, eleven bits of exponent and
fifty-two of fraction. A finite one is `± m · 2 ^ q` with `m < 2 ^ 53` and `-1074 ≤ q`.

`ofRatio?` rounds a fraction to the nearest double, a tie to the even one.

Results:

* `roundDiv_mul_le`, `le_roundDiv_mul`: a rounded quotient is within half a unit of the quotient.
-/

namespace TaskQueue.Number

/-- A floating-point number of 64 bits. -/
structure Double where
  bits : UInt64
  deriving DecidableEq

namespace Double

/-- Plus or minus zero. -/
def zero (negative : Bool) : Double := ⟨if negative then 0x8000000000000000 else 0⟩

instance : Inhabited Double := ⟨zero false⟩

/-- The sign bit. -/
def isNegative (x : Double) : Bool := twoTo 63 ≤ x.bits.toNat

/-- The bits of the exponent. -/
def exponentField (x : Double) : Nat := x.bits.toNat / twoTo 52 % twoTo 11

/-- The bits of the fraction. -/
def fractionField (x : Double) : Nat := x.bits.toNat % twoTo 52

/-- Neither infinite nor no number. -/
def isFinite (x : Double) : Bool := x.exponentField != 2047

/-- No number at all. -/
def isNaN (x : Double) : Bool := x.exponentField == 2047 && x.fractionField != 0

/-- The whole number `m` of the magnitude `m · 2 ^ q`. -/
def significand (x : Double) : Nat :=
  if x.exponentField = 0 then x.fractionField else twoTo 52 + x.fractionField

/-- The power `q` of the magnitude `m · 2 ^ q`. -/
def exponent (x : Double) : Int :=
  if x.exponentField = 0 then -1074 else (x.exponentField : Int) - 1075

/-! ## Rounding -/

/-- The whole number nearest to `a / b`, a tie to the even one. -/
def roundDiv (a b : Nat) : Nat :=
  let q := a / b
  let r := a % b
  if 2 * r < b then q else if b < 2 * r then q + 1 else q + q % 2

theorem roundDiv_mul_le (a : Nat) {b : Nat} (hb : 0 < b) : 2 * (roundDiv a b * b) ≤ 2 * a + b := by
  have h := Nat.div_add_mod a b
  have hr := Nat.mod_lt a hb
  have hq : b * (a / b) = a / b * b := Nat.mul_comm _ _
  simp only [roundDiv]
  split
  · omega
  · split
    · rw [Nat.add_mul]; omega
    · rcases Nat.mod_two_eq_zero_or_one (a / b) with h2 | h2 <;> rw [h2, Nat.add_mul] <;> omega

theorem le_roundDiv_mul (a : Nat) {b : Nat} (hb : 0 < b) : 2 * a ≤ 2 * (roundDiv a b * b) + b := by
  have h := Nat.div_add_mod a b
  have hr := Nat.mod_lt a hb
  have hq : b * (a / b) = a / b * b := Nat.mul_comm _ _
  simp only [roundDiv]
  split
  · omega
  · split
    · rw [Nat.add_mul]; omega
    · rcases Nat.mod_two_eq_zero_or_one (a / b) with h2 | h2 <;> rw [h2, Nat.add_mul] <;> omega

/-- `num / den` in units of `2 ^ q`, to the nearest. -/
def inUnits (num den : Nat) (q : Int) : Nat :=
  if 0 ≤ q then roundDiv num (den * twoTo q.toNat) else roundDiv (num * twoTo (-q).toNat) den

/-- The power of two of the leading bit of `num / den`. -/
def leadingPower (num den : Nat) : Int :=
  let k : Int := (num.log2 : Int) - den.log2
  let reached :=
    if 0 ≤ k then decide (den * twoTo k.toNat ≤ num) else decide (den ≤ num * twoTo (-k).toNat)
  if reached then k else k - 1

/-- The double nearest to `num / den`, a tie to the even one; none when beyond the largest. -/
def ofRatio? (negative : Bool) (num den : Nat) : Option Double :=
  if num = 0 then some (zero negative)
  else
    let q := max (leadingPower num den - 52) (-1074)
    let magnitude := (q + 1074).toNat * twoTo 52 + inUnits num den q
    if magnitude < 2047 * twoTo 52 then
      some ⟨UInt64.ofNat (magnitude + if negative then twoTo 63 else 0)⟩
    else none

/-! ## Machine numbers -/

/-- The machine's number with these bits. -/
def toFloat (x : Double) : Float := Float.ofBits x.bits

/-- The bits of a machine number. -/
def ofFloat (f : Float) : Double := ⟨f.toBits⟩

end Double

end TaskQueue.Number
