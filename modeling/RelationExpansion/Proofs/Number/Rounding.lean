import Mathlib.Algebra.Ring.Int.Defs
import Mathlib.Algebra.Ring.Nat
import RelationExpansion.Json.Reader

/-! # Numbers that have a double

Rounding a whole number of 64 bits stays far below the largest double.  No text holds a larger whole
number (`fits_of_readNumber`), so every number that is read can be compared with every other.
-/

namespace RelationExpansion

namespace Double

variable {value lift : Nat}

theorem roundDiv_le (num den : Nat) : roundDiv num den ≤ num / den + 1 := by
  unfold roundDiv
  dsimp only
  split <;> omega

/-- At a lift that fits the width of a whole number, what is rounded has few bits left. -/
theorem scaled_lt (fits : value.log2 + 1021 ≤ lift) :
    (scaled value 1 lift).1 < (scaled value 1 lift).2 * 2 ^ 54 := by
  have width : value < 2 ^ (value.log2 + 1) := Nat.lt_log2_self
  unfold scaled
  split
  · rename_i high
    calc value < 2 ^ (value.log2 + 1) := width
      _ ≤ 2 ^ (lift - 1074 + 54) := Nat.pow_le_pow_right (by decide) (by omega)
      _ = 1 * Nat.pow 2 (lift - 1074) * 2 ^ 54 := by rw [Nat.pow_add, Nat.one_mul, Nat.pow_eq]
  · rename_i low
    calc value * Nat.pow 2 (1074 - lift)
        < 2 ^ (value.log2 + 1) * 2 ^ (1074 - lift) :=
          Nat.mul_lt_mul_of_pos_right width (Nat.two_pow_pos _)
      _ = 2 ^ (value.log2 + 1 + (1074 - lift)) := (Nat.pow_add _ _ _).symm
      _ ≤ 2 ^ 54 := Nat.pow_le_pow_right (by decide) (by omega)
      _ = 1 * 2 ^ 54 := (Nat.one_mul _).symm

theorem liftFor_bounds (positive : value ≠ 0) :
    value.log2 + 1021 ≤ liftFor value 1 ∧ liftFor value 1 ≤ value.log2 + 1022 := by
  have one : (1 : Nat).log2 = 0 := by decide
  unfold liftFor
  rw [if_neg positive, one]
  dsimp only
  split <;> omega

theorem exists_ofNat? (small : value < 2 ^ 64) : ∃ x, ofNat? value = some x := by
  have finite : nearestMagnitude value 1 < 2047 * Nat.pow 2 52 := by
    by_cases zero : value = 0
    · subst zero
      decide +kernel
    · obtain ⟨low, high⟩ := liftFor_bounds zero
      have bits : value.log2 < 64 := (Nat.log2_lt zero).2 small
      have rounded := roundDiv_le (scaled value 1 (liftFor value 1)).1
        (scaled value 1 (liftFor value 1)).2
      have quotient : (scaled value 1 (liftFor value 1)).1 / (scaled value 1 (liftFor value 1)).2 <
          2 ^ 54 :=
        Nat.div_lt_of_lt_mul (scaled_lt low)
      unfold nearestMagnitude
      simp only [Nat.pow_eq]
      omega
  exact ⟨_, dif_pos finite⟩

end Double

namespace Number

variable {left right : Number}

/-- Whether a number is one that a text can hold: an integer that fits in 64 bits, signed or
unsigned, or a double. -/
def Fits : Number → Prop
  | .int value => -(2 ^ 63) ≤ value ∧ value < 2 ^ 64
  | .double _ => True

theorem Fits.exists_toDouble? : ∀ {number : Number}, number.Fits → ∃ x, number.toDouble? = some x
  | .int value, fits => by
    obtain ⟨low, high⟩ := fits
    have small : value.natAbs < 2 ^ 64 := by omega
    obtain ⟨x, rounded⟩ := Double.exists_ofNat? small
    exact ⟨_, by rw [toDouble?, rounded]; rfl⟩
  | .double x, _ => ⟨x, rfl⟩

theorem Fits.compare?_isSome (fits : left.Fits) (fits' : right.Fits) :
    (left.compare? right).isSome = true := by
  obtain ⟨x, hx⟩ := fits.exists_toDouble?
  obtain ⟨y, hy⟩ := fits'.exists_toDouble?
  rw [compare?, hx, hy]
  rfl

end Number

/-! ## Numbers that are read -/

namespace Json

theorem absorb_le {start : Nat} (fits : start ≤ Count.largest) (digits : List Char) :
    (absorb start digits).1 ≤ Count.largest := by
  induction digits generalizing start with
  | nil => exact fits
  | cons c rest ih =>
    rw [absorb]
    dsimp only
    split
    · exact ih ‹_›
    · exact fits

theorem fits_of_number? {negative : Bool} {whole : List Char} {fraction : Option (List Char)}
    {exponent : Option Int} {number : Number}
    (read : number? negative whole fraction exponent = some number) : number.Fits := by
  have start : (absorb 0 whole).1 ≤ Count.largest := absorb_le (Nat.zero_le _) whole
  unfold number? at read
  dsimp only at read
  split at read
  · rename_i integral
    obtain ⟨-, -, -, small⟩ := integral
    cases read
    rw [Count.largest, Nat.pow_eq] at start
    rw [Nat.pow_eq] at small
    cases negative with
    | false =>
      rw [if_neg Bool.false_ne_true]
      exact ⟨by omega, by omega⟩
    | true =>
      have bound := (small rfl).2
      rw [if_pos rfl]
      exact ⟨by omega, by omega⟩
  · obtain ⟨_, -, rfl⟩ := Option.map_eq_some_iff.1 read
    trivial

/-- Every number that is read from a text fits. -/
theorem fits_of_readNumber {text rest : List Char} {number : Number}
    (read : readNumber text = some (number, rest)) : number.Fits := by
  have unsigned : ∀ {negative text}, readUnsigned negative text = some (number, rest) →
      number.Fits := by
    intro negative text read
    unfold readUnsigned at read
    obtain ⟨⟨whole, left⟩, -, read⟩ := Option.bind_eq_some_iff.1 read
    obtain ⟨⟨fraction, left⟩, -, read⟩ := Option.bind_eq_some_iff.1 read
    obtain ⟨⟨exponent, left⟩, -, read⟩ := Option.bind_eq_some_iff.1 read
    obtain ⟨value, made, read⟩ := Option.bind_eq_some_iff.1 read
    cases read
    exact fits_of_number? made
  unfold readNumber at read
  split at read <;> exact unsigned read

end Json

end RelationExpansion
