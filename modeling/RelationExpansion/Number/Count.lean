import RelationExpansion.Text.Blank

/-! # Counts that fit in 64 bits

Page sizes, page numbers, offsets and totals are natural numbers up to `Count.largest`.  Addition
is checked: a sum that does not fit is an `Overflow` and not a number.  Multiplication stops at the
largest count.
-/

namespace RelationExpansion

/-- A sum of counts that does not fit in 64 bits. -/
inductive Overflow where
  | countTooLarge
  deriving DecidableEq, Repr, Inhabited

namespace Count

def largest : Nat := Nat.pow 2 64 - 1

def add (left right : Nat) : Except Overflow Nat :=
  if left + right ≤ largest then .ok (left + right) else .error .countTooLarge

def mulSaturating (left right : Nat) : Nat := min (left * right) largest

/-- The number of pages of `size` entries that hold `total` entries. -/
def ceilDiv (total size : Nat) : Nat := (total + (size - 1)) / size

/-! ## Reading -/

def digitValue (c : Char) : Nat := c.toNat - '0'.toNat

/-- The value of a run of decimal digits; the empty run is no number. -/
def ofDigits? (digits : List Char) : Option Nat :=
  if digits ≠ [] ∧ digits.all Char.isDigit then
    some (digits.foldl (fun value c => 10 * value + digitValue c) 0)
  else none

def ofSigned? : List Char → Option Nat
  | '+' :: digits => ofDigits? digits
  | digits => ofDigits? digits

/-- Decimal digits with an optional plus sign, blanks around them, and a value that fits. -/
def ofText? (text : String) : Option Nat :=
  (ofSigned? (Text.trim text.toList)).filter (· ≤ largest)

/-! ## Laws -/

theorem add_eq_ok_iff {left right sum : Nat} :
    add left right = .ok sum ↔ left + right ≤ largest ∧ sum = left + right := by
  unfold add
  by_cases fits : left + right ≤ largest
  · simp [fits, eq_comm]
  · simp [fits]

end Count

end RelationExpansion
