import RelationExpansion.Proofs.Number.Rounding

/-! # Integers that are doubles

A whole number below `2 ^ 53` is rounded to a double without loss, and of two such numbers the
greater one has the greater magnitude (`Double.nearestMagnitude_lt`).  So comparing integers of that
size as doubles is comparing them as integers (`Number.compare?_int`).
-/

namespace RelationExpansion

namespace Double

variable {value other : Nat}

theorem roundDiv_one (num : Nat) : roundDiv num 1 = num := by
  simp [roundDiv, Nat.mod_one]

/-- A whole number of at most 53 bits is filled up to 53 bits, which leaves it whole. -/
theorem scaled_of_lt (small : value < 2 ^ 53) :
    scaled value 1 (value.log2 + 1022) = (value * 2 ^ (52 - value.log2), 1) := by
  unfold scaled
  split
  · rename_i high
    have width : value.log2 = 52 := by
      by_cases zero : value = 0
      · subst zero
        simp at high
      · have := (Nat.log2_lt zero).2 small
        omega
    simp [width]
  · rename_i low
    have places : 1074 - (value.log2 + 1022) = 52 - value.log2 := by omega
    rw [Nat.pow_eq, places]

theorem filled_bounds (positive : value ≠ 0) (small : value < 2 ^ 53) :
    2 ^ 52 ≤ value * 2 ^ (52 - value.log2) ∧ value * 2 ^ (52 - value.log2) < 2 ^ 53 := by
  have bits : value.log2 < 53 := (Nat.log2_lt positive).2 small
  constructor
  · calc 2 ^ 52 = 2 ^ value.log2 * 2 ^ (52 - value.log2) := by
          rw [← Nat.pow_add]
          congr 1
          omega
      _ ≤ value * 2 ^ (52 - value.log2) := Nat.mul_le_mul_right _ (Nat.log2_self_le positive)
  · calc value * 2 ^ (52 - value.log2) < 2 ^ (value.log2 + 1) * 2 ^ (52 - value.log2) :=
          Nat.mul_lt_mul_of_pos_right Nat.lt_log2_self (Nat.two_pow_pos _)
      _ = 2 ^ 53 := by
          rw [← Nat.pow_add]
          congr 1
          omega

theorem nearestMagnitude_of_lt (positive : value ≠ 0) (small : value < 2 ^ 53) :
    nearestMagnitude value 1 =
      (value.log2 + 1022) * 2 ^ 52 + value * 2 ^ (52 - value.log2) := by
  have one : (1 : Nat).log2 = 0 := by decide
  have lift : liftFor value 1 = value.log2 + 1022 := by
    have full := (filled_bounds positive small).1
    unfold liftFor
    rw [if_neg positive, one]
    dsimp only
    rw [Nat.sub_zero, scaled_of_lt small, if_neg]
    simp only [Nat.pow_eq]
    omega
  unfold nearestMagnitude
  dsimp only
  rw [lift, scaled_of_lt small, roundDiv_one]
  rfl

theorem nearestMagnitude_zero : nearestMagnitude 0 1 = 0 := by
  decide +kernel

theorem nearestMagnitude_lt (before : value < other) (small : other < 2 ^ 53) :
    nearestMagnitude value 1 < nearestMagnitude other 1 := by
  have positive : other ≠ 0 := by omega
  have full := filled_bounds positive small
  rw [nearestMagnitude_of_lt positive small]
  by_cases zero : value = 0
  · subst zero
    rw [nearestMagnitude_zero]
    omega
  · have small' : value < 2 ^ 53 := by omega
    have full' := filled_bounds zero small'
    rw [nearestMagnitude_of_lt zero small']
    have width : value.log2 ≤ other.log2 := by
      have low := Nat.log2_self_le zero
      by_contra wider
      have high : other < 2 ^ value.log2 := (Nat.log2_lt positive).1 (by omega)
      omega
    -- Fewer bits give a smaller lift; with as many bits, the numbers themselves decide.
    rcases Nat.lt_or_eq_of_le width with fewer | same
    · omega
    · rw [same] at full' ⊢
      have filled := Nat.mul_lt_mul_of_pos_right before (Nat.two_pow_pos (52 - other.log2))
      omega

end Double

namespace Number

variable {left right value : Int}

/-- The rank of the double that is nearest to an integer. -/
def integerRank (value : Int) : Int :=
  if value < 0 then -(Double.nearestMagnitude value.natAbs 1 : Int)
  else Double.nearestMagnitude value.natAbs 1

theorem exists_toDouble?_int (small : value.natAbs < 2 ^ 53) :
    ∃ x, (Number.int value).toDouble? = some x ∧ x.rank = integerRank value := by
  obtain ⟨x, rounded⟩ := Double.exists_ofNat? (show value.natAbs < 2 ^ 64 by omega)
  refine ⟨_, by rw [toDouble?, rounded]; rfl, ?_⟩
  have magnitude : x.magnitude = Double.nearestMagnitude value.natAbs 1 := by
    rw [Double.ofNat?, Double.nearest?] at rounded
    obtain ⟨finite, nearest⟩ := Option.dite_none_right_eq_some.1 rounded
    exact (congrArg Double.magnitude (Option.some.inj nearest)).symm
  simp [Double.rank, integerRank, magnitude]

theorem integerRank_lt (before : left < right) (small : left.natAbs < 2 ^ 53)
    (small' : right.natAbs < 2 ^ 53) : integerRank left < integerRank right := by
  unfold integerRank
  by_cases negative : left < 0
  · by_cases negative' : right < 0
    · have nearer := Double.nearestMagnitude_lt (show right.natAbs < left.natAbs by omega) small
      simp only [negative, negative', if_true]
      omega
    · have apart := Double.nearestMagnitude_lt (show 0 < left.natAbs by omega) small
      simp only [negative, negative', if_true, if_false]
      omega
  · have farther := Double.nearestMagnitude_lt (show left.natAbs < right.natAbs by omega) small'
    have positive : ¬ right < 0 := by omega
    simp only [negative, positive, if_false]
    omega

/-- Integers of at most 53 bits are compared as integers. -/
theorem compare?_int (small : left.natAbs < 2 ^ 53) (small' : right.natAbs < 2 ^ 53) :
    (Number.int left).compare? (.int right) = some (compare left right) := by
  obtain ⟨x, rounded, rank⟩ := exists_toDouble?_int small
  obtain ⟨y, rounded', rank'⟩ := exists_toDouble?_int small'
  have compared : (Number.int left).compare? (.int right) =
      some (compare (integerRank left) (integerRank right)) := by
    rw [compare?, rounded, rounded', ← rank, ← rank']
    rfl
  rw [compared]
  congr 1
  rcases Int.lt_trichotomy left right with before | rfl | after
  · rw [Int.compare_eq_lt.2 before, Int.compare_eq_lt.2 (integerRank_lt before small small')]
  · simp
  · rw [Int.compare_eq_gt.2 after, Int.compare_eq_gt.2 (integerRank_lt after small' small)]

end Number

end RelationExpansion
