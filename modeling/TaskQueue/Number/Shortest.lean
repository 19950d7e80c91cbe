import TaskQueue.Number.Double

/-!
# Shortest decimal text

The text of a finite double is the decimal number with the fewest digits that reads back as the
double, and of those the one nearest to it.

The decimal numbers that read back fill the interval between the midpoints to the two neighbours,
with its ends exactly when the significand is even. For one digit, two digits and so on the two
points of the decimal grid around the double are tried.

The digits stand around a point when the decimal exponent is from -5 to 15, and then with at least
one digit on either side; otherwise in front of a power of ten with its sign.
-/

namespace TaskQueue.Number

/-- A decimal number `digits · 10 ^ power`. -/
structure Decimal where
  digits : Nat
  power : Int
  deriving DecidableEq, Repr

/-- The digits of a decimal number without zeros at the end. -/
def Decimal.text (d : Decimal) : List Char :=
  let ds := ((Nat.toDigits 10 d.digits).reverse.dropWhile (· == '0')).reverse
  if ds.isEmpty then ['0'] else ds

/-- What reads back as a double, in units of `1 / denominator`. -/
structure Interval where
  low : Nat
  value : Nat
  high : Nat
  denominator : Nat
  closed : Bool

namespace Double

/-- The numbers that round to the magnitude of a double that is not zero. Below a power of two the
next double lies only half as far away. -/
def interval (x : Double) : Interval :=
  let m := x.significand
  let q := x.exponent - 2
  let up := twoTo q.toNat
  let below := if m = twoTo 52 ∧ -1074 < x.exponent then 1 else 2
  ⟨(4 * m - below) * up, 4 * m * up, (4 * m + 2) * up, twoTo (-q).toNat, m % 2 == 0⟩

/-- The decimal exponent of the magnitude: the power of ten of its first digit. -/
def decimalExponent (x : Double) : Int :=
  let i := x.interval
  let guess := ((x.significand.log2 : Int) + x.exponent) * 30103 / 100000
  let next := guess + 1
  let reached :=
    if 0 ≤ next then decide (i.denominator * tenTo next.toNat ≤ i.value)
    else decide (i.denominator ≤ i.value * tenTo (-next).toNat)
  if reached then next else guess

/-- The best point of the grid of powers `10 ^ j` that reads back, if there is one. -/
def gridPoint? (i : Interval) (j : Int) : Option Nat :=
  let scale := tenTo (-j).toNat
  let unit := i.denominator * tenTo j.toNat
  let value := i.value * scale
  let inside (d : Nat) : Bool :=
    let p := d * unit
    if i.closed then decide (i.low * scale ≤ p) && decide (p ≤ i.high * scale)
    else decide (i.low * scale < p) && decide (p < i.high * scale)
  let d := value / unit
  let r := value % unit
  match inside d, inside (d + 1) with
  | true, true => some (if 2 * r < unit ∨ (2 * r = unit ∧ d % 2 = 0) then d else d + 1)
  | true, false => some d
  | false, true => some (d + 1)
  | false, false => none

/-- The first grid with a point that reads back, from `n` digits on; `more` grids are tried. -/
def searchGrids (i : Interval) (e : Int) (n : Nat) : (more : Nat) → Decimal
  | 0 => ⟨0, 0⟩
  | more + 1 =>
    let j := e - n + 1
    match gridPoint? i j with
    | some d => ⟨d, j⟩
    | none => searchGrids i e (n + 1) more

/-- The shortest decimal number that reads back as the magnitude of a double. Seventeen digits are
always enough. -/
def shortest (x : Double) : Decimal :=
  if x.significand = 0 then ⟨0, 0⟩
  else searchGrids x.interval x.decimalExponent 1 17

/-! ## Text -/

/-- Decimal digits `ds` with the point after `whole` of them, padded with zeros where there are
none. -/
def pointed (ds : List Char) (whole : Int) : List Char :=
  let n := ds.length
  if whole ≤ 0 then '0' :: '.' :: List.replicate (-whole).toNat '0' ++ ds
  else if (n : Int) ≤ whole then ds ++ List.replicate (whole.toNat - n) '0' ++ ['.', '0']
  else ds.take whole.toNat ++ '.' :: ds.drop whole.toNat

/-- Decimal digits in front of a power of ten: one digit before the point, and a point only before
further digits. -/
def powered (ds : List Char) (e : Int) : List Char :=
  let mantissa := match ds with
    | d :: r :: rs => d :: '.' :: r :: rs
    | ds => ds
  mantissa ++ 'e' :: (if e < 0 then '-' else '+') :: Nat.toDigits 10 e.natAbs

/-- The text of a finite double. -/
def render (x : Double) : List Char :=
  let d := x.shortest
  let e := (Nat.toDigits 10 d.digits).length + d.power - 1
  let ds := d.text
  let body := if -5 ≤ e ∧ e ≤ 15 then pointed ds (e + 1) else powered ds e
  if x.isNegative then '-' :: body else body

end Double

end TaskQueue.Number
