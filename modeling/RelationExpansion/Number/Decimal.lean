import RelationExpansion.Number.Double

/-! # Shortest decimals

`Double.shortest` is the decimal with the fewest digits that rounds to a double, and of those the
nearest to it.  `Layout` holds what a format decides about writing a decimal: which exponents are
written out in full, and how an exponent is marked.
-/

namespace RelationExpansion

/-- The number `digits · 10 ^ exponent`. -/
structure Decimal where
  digits : Nat
  exponent : Int
  deriving DecidableEq, Repr, Inhabited

namespace Decimal

/-- The number of decimal digits; zero has none. -/
def width (value : Nat) : Nat := if value = 0 then 0 else (Nat.toDigits 10 value).length

/-- The exponent of the leading digit of a positive ratio. -/
def leadingExponent (num den : Nat) : Int :=
  if den ≤ num then (width (num / den) : Int) - 1
  else -(width ((den + num - 1) / num - 1) : Int)

/-- Drops trailing zeros, at most as many as asked for. -/
def dropZeros (decimal : Decimal) : Nat → Decimal
  | 0 => decimal
  | most + 1 =>
    if decimal.digits % 10 = 0 ∧ decimal.digits ≠ 0 then
      dropZeros ⟨decimal.digits / 10, decimal.exponent + 1⟩ most
    else decimal

/-! ## Writing -/

/-- How decimals are written: in full when the exponent of the leading digit lies in
`[plainFrom, plainBelow)`, and with one digit before the point and a signed exponent otherwise. -/
structure Layout where
  plainFrom : Int
  plainBelow : Int
  wholeEnding : String
  exponentMark : String
  deriving DecidableEq, Repr

def zeros (count : Nat) : String := String.ofList (List.replicate count '0')

def renderPlain (layout : Layout) (digits : List Char) (exponent : Int) : String :=
  let point : Int := digits.length + exponent
  if 0 ≤ exponent then
    String.ofList digits ++ zeros exponent.toNat ++ layout.wholeEnding
  else if 0 < point then
    String.ofList (digits.take point.toNat) ++ "." ++ String.ofList (digits.drop point.toNat)
  else
    "0." ++ zeros (-point).toNat ++ String.ofList digits

def renderScientific (layout : Layout) (digits : List Char) (leading : Int) : String :=
  let sign := if leading < 0 then "-" else "+"
  let fraction := if digits.length ≤ 1 then "" else "." ++ String.ofList (digits.drop 1)
  String.ofList (digits.take 1) ++ fraction ++ layout.exponentMark ++ sign ++
    String.ofList (Nat.toDigits 10 leading.natAbs)

def render (layout : Layout) (decimal : Decimal) : String :=
  if decimal.digits = 0 then "0" ++ layout.wholeEnding
  else
    let digits := Nat.toDigits 10 decimal.digits
    let leading : Int := digits.length + decimal.exponent - 1
    if layout.plainFrom ≤ leading ∧ leading < layout.plainBelow then
      renderPlain layout digits decimal.exponent
    else renderScientific layout digits leading

end Decimal

namespace Double

/-- A grid point `count · 10 ^ exponent` as a ratio. -/
def gridPoint (count : Nat) (exponent : Int) : Nat × Nat :=
  if 0 ≤ exponent then (count * Nat.pow 10 exponent.toNat, 1)
  else (count, Nat.pow 10 (-exponent).toNat)

/-- Whether a ratio rounds to this positive double.  The distance to the next smaller double is
halved at the lower end of a binade; the ends of the interval count if the significand is even. -/
def rounds (x : Double) (num den : Nat) : Bool :=
  let m := x.significand
  let below := if m = Nat.pow 2 52 ∧ x.lift ≠ 0 then 4 * m - 1 else 4 * m - 2
  let above := 4 * m + 2
  let (unitNum, unitDen) : Nat × Nat :=
    if 1076 ≤ x.lift then (Nat.pow 2 (x.lift - 1076), 1) else (1, Nat.pow 2 (1076 - x.lift))
  let point := num * unitDen
  let low := below * unitNum * den
  let high := above * unitNum * den
  if m % 2 = 0 then low ≤ point && point ≤ high else low < point && point < high

/-- The grid point with this exponent that rounds to the double, if any; of two the nearer, and of
two equally near the even one. -/
def onGrid? (x : Double) (exponent : Int) : Option Decimal :=
  let (num, den) := x.ratio
  let (unitNum, unitDen) := gridPoint 1 exponent
  let count := num * unitDen / (den * unitNum)
  let fits (count : Nat) : Bool :=
    let (pointNum, pointDen) := gridPoint count exponent
    x.rounds pointNum pointDen
  let middle := (2 * count + 1) * (den * unitNum)
  let twice := 2 * (num * unitDen)
  let upperNearer : Bool := middle < twice || (middle = twice && count % 2 = 1)
  match fits count, fits (count + 1) with
  | true, true => some ⟨if upperNearer then count + 1 else count, exponent⟩
  | true, false => some ⟨count, exponent⟩
  | false, true => some ⟨count + 1, exponent⟩
  | false, false => none

/-- The absolute value in as few decimal digits as read back, at most seventeen. -/
def shortest (x : Double) : Decimal :=
  if x.isZero then ⟨0, 0⟩
  else
    let leading := Decimal.leadingExponent x.ratio.1 x.ratio.2
    let found := (List.range 18).findSome? fun (more : Nat) => x.onGrid? (leading - more)
    (found.getD ⟨0, 0⟩).dropZeros 17

def render (layout : Decimal.Layout) (x : Double) : String :=
  (if x.negative then "-" else "") ++ x.shortest.render layout

end Double

end RelationExpansion
