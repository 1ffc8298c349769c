/-! # Finite doubles

A finite double is a sign and a magnitude: the 63 low bits of its binary form read as one number.
Magnitudes are ordered as the values they stand for, and the magnitude after the largest one of a
binade is the smallest one of the next, so rounding can carry over without a special case.

`nearest?` rounds a ratio of natural numbers to the nearest double, a tie going to the even
magnitude; there is none when the ratio lies beyond the largest double.
-/

namespace RelationExpansion

/-- A double that is neither infinite nor a NaN. -/
structure Double where
  negative : Bool
  magnitude : Nat
  finite : magnitude < 2047 * Nat.pow 2 52
  deriving DecidableEq, Repr

namespace Double

def zero : Double := ⟨false, 0, by decide⟩

instance : Inhabited Double := ⟨zero⟩

def isZero (x : Double) : Bool := x.magnitude = 0

def neg (x : Double) : Double := { x with negative := !x.negative }

/-! ## The value -/

/-- The whole number `m` of the value `m · 2 ^ (lift - 1074)`. -/
def significand (x : Double) : Nat :=
  if x.magnitude < Nat.pow 2 52 then x.magnitude else Nat.pow 2 52 + x.magnitude % Nat.pow 2 52

/-- How far the binary exponent lies above the smallest one, -1074. -/
def lift (x : Double) : Nat := x.magnitude / Nat.pow 2 52 - 1

/-- The absolute value as a ratio of natural numbers. -/
def ratio (x : Double) : Nat × Nat :=
  if 1074 ≤ x.lift then (x.significand * Nat.pow 2 (x.lift - 1074), 1)
  else (x.significand, Nat.pow 2 (1074 - x.lift))

/-- A number that orders doubles by value; both zeros have the same one. -/
def rank (x : Double) : Int := if x.negative then -(x.magnitude : Int) else x.magnitude

/-! ## Rounding -/

/-- The quotient rounded to the nearest whole number, a tie going to the even one. -/
def roundDiv (num den : Nat) : Nat :=
  let quotient := num / den
  let twice := 2 * (num % den)
  if den < twice ∨ (den = twice ∧ quotient % 2 = 1) then quotient + 1 else quotient

/-- The ratio divided by `2 ^ (lift - 1074)`, as a ratio. -/
def scaled (num den lift : Nat) : Nat × Nat :=
  if 1074 ≤ lift then (num, den * Nat.pow 2 (lift - 1074)) else (num * Nat.pow 2 (1074 - lift), den)

/-- The lift at which the scaled ratio lies below `2 ^ 53`, and not below `2 ^ 52` unless the lift
is zero. -/
def liftFor (num den : Nat) : Nat :=
  if num = 0 then 0
  else
    let guess := num.log2 + 1022 - den.log2
    let (top, bottom) := scaled num den guess
    if top < bottom * Nat.pow 2 52 then guess - 1 else guess

/-- The magnitude nearest to a ratio, on a scale that goes on beyond the largest double. -/
def nearestMagnitude (num den : Nat) : Nat :=
  let lift := liftFor num den
  let (top, bottom) := scaled num den lift
  lift * Nat.pow 2 52 + roundDiv top bottom

def nearest? (num den : Nat) : Option Double :=
  let magnitude := nearestMagnitude num den
  if finite : magnitude < 2047 * Nat.pow 2 52 then some ⟨false, magnitude, finite⟩ else none

def ofNat? (value : Nat) : Option Double := nearest? value 1

/-- The product of two absolute values, rounded. -/
def mul? (x y : Double) : Option Double :=
  nearest? (x.ratio.1 * y.ratio.1) (x.ratio.2 * y.ratio.2)

/-- The quotient of two absolute values, rounded. -/
def div? (x y : Double) : Option Double :=
  nearest? (x.ratio.1 * y.ratio.2) (x.ratio.2 * y.ratio.1)

/-! ## Decimal scaling -/

/-- The double nearest to a power of ten. -/
def tenPow? (exponent : Nat) : Option Double := ofNat? (Nat.pow 10 exponent)

/-- Divides by a power of ten that is at most `10 ^ 308`. -/
def divTenPow (x : Double) (exponent : Nat) : Double :=
  ((tenPow? exponent).bind x.div?).getD zero

/-- Divides by `10 ^ exponent`, after as many divisions by `10 ^ 308` as asked for; each quotient
is rounded, and zero stays zero. -/
def shrinkBy (x : Double) (exponent : Nat) : Nat → Double
  | 0 => x.divTenPow exponent
  | passes + 1 =>
    let y := x.divTenPow 308
    if y.isZero then y else shrinkBy y (exponent - 308) passes

def shrink (x : Double) (exponent : Nat) : Double := x.shrinkBy exponent ((exponent - 1) / 308)

/-- Multiplies by `10 ^ exponent`; zero stays zero and the rest must stay finite. -/
def grow? (x : Double) (exponent : Nat) : Option Double :=
  if exponent ≤ 308 then (tenPow? exponent).bind x.mul?
  else if x.isZero then some x else none

/-- A whole number times a power of ten, rounded first as a whole number and again after scaling. -/
def ofDecimal? (digits : Nat) (exponent : Int) : Option Double :=
  (ofNat? digits).bind fun x =>
    if 0 ≤ exponent then x.grow? exponent.toNat else some (x.shrink (-exponent).toNat)

end Double

end RelationExpansion
