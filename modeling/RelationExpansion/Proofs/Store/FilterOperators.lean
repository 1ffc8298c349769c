import RelationExpansion.Proofs.Number.ExactIntegers
import RelationExpansion.Proofs.Store.Ordering

/-! # The operators of a filter

A field name and an operator behind it are read back as what they are (`Comparison.ofKey_key`), so a
member of a filter compares the field as its operator says.  On values of one type a comparison and
its opposite never agree (`Record.opposed`).

Equal numbers are equal values, but numbers are put in order by their doubles.  Two different
numbers of one double are neither less, nor equal, nor greater, and for these alone the operators do
not fit together (`Record.coherent_exact`).
-/

namespace RelationExpansion

/-! ## Keys -/

namespace Comparison

/-- What is written behind a field name. -/
def operator : Comparison → String
  | .equal => ""
  | .unequal => "!="
  | .greater => ">"
  | .greaterOrEqual => ">="
  | .less => "<"
  | .lessOrEqual => "<="

def key (comparison : Comparison) (field : String) : String := field ++ comparison.operator

/-- A name that can be told from the operator behind it. -/
structure IsFieldName (field : String) : Prop where
  trimmed : Text.trimRight field.toList = field.toList
  bare : ∀ entry ∈ operators, ¬ entry.1.toList <:+ field.toList

instance (field : String) : Decidable (IsFieldName field) :=
  decidable_of_iff (Text.trimRight field.toList = field.toList ∧
      ∀ entry ∈ operators, ¬ entry.1.toList <:+ field.toList)
    ⟨fun ⟨trimmed, bare⟩ => ⟨trimmed, bare⟩, fun name => ⟨name.trimmed, name.bare⟩⟩

variable {field : String} {comparison : Comparison} {after : List (String × Comparison)}

theorem ofKeyWith_of_free {key : List Char} (before after : List (String × Comparison))
    (free : ∀ entry ∈ before, ¬ entry.1.toList <:+ key) :
    ofKeyWith (before ++ after) key = ofKeyWith after key := by
  induction before with
  | nil => rfl
  | cons entry rest ih =>
    obtain ⟨first, others⟩ := List.forall_mem_cons.1 free
    rw [List.cons_append, ofKeyWith, Text.dropEnd?_eq_none first]
    exact ih others

/-- The operator of a key is the first one in the list that the key ends in. -/
theorem ofKeyWith_operators (name : IsFieldName field) (before : List (String × Comparison))
    (split : operators = before ++ (comparison.operator, comparison) :: after)
    (free : ∀ entry ∈ before, ¬ entry.1.toList <:+ field.toList ++ comparison.operator.toList) :
    ofKeyWith operators (field.toList ++ comparison.operator.toList) =
      (field.toList, comparison) := by
  rw [split, ofKeyWith_of_free before _ free, ofKeyWith, Text.dropEnd?_append]
  simp only [name.trimmed]

theorem ofKey_key (name : IsFieldName field) (comparison : Comparison) :
    ofKey (comparison.key field) = (field, comparison) := by
  have reads : ofKeyWith operators (field.toList ++ comparison.operator.toList) =
      (field.toList, comparison) := by
    -- Read backwards, an operator and the end of the key differ in one of two characters.
    cases comparison with
    | equal =>
      rw [operator, String.toList_empty, List.append_nil]
      exact ofKeyWith_of_free operators [] name.bare
    | greaterOrEqual => exact ofKeyWith_operators name [] rfl (by simp)
    | lessOrEqual =>
      apply ofKeyWith_operators name (operators.take 1) rfl
      simp [operators, operator, ← List.reverse_prefix]
    | unequal =>
      apply ofKeyWith_operators name (operators.take 2) rfl
      simp [operators, operator, ← List.reverse_prefix]
    | greater =>
      apply ofKeyWith_operators name (operators.take 3) rfl
      simp [operators, operator, ← List.reverse_prefix]
    | less =>
      apply ofKeyWith_operators name (operators.take 4) rfl
      simp [operators, operator, ← List.reverse_prefix]
  simp [ofKey, key, reads]

end Comparison

/-! ## Values of one type -/

namespace Number

variable {left right : Number}

/-- Two different numbers of one double. -/
def Blurs (left right : Number) : Prop :=
  left.same right = false ∧ left.compare? right = some .eq

/-- Two doubles, or two integers of at most 53 bits. -/
def AreExact : Number → Number → Prop
  | .int left, .int right => left.natAbs < 2 ^ 53 ∧ right.natAbs < 2 ^ 53
  | .double _, .double _ => True
  | _, _ => False

theorem compare?_double (x y : Double) :
    (Number.double x).compare? (.double y) = some (compare x.rank y.rank) := rfl

theorem compare?_of_same (fits : left.Fits) (same : left.same right = true) :
    left.compare? right = some .eq := by
  cases left with
  | int value =>
    cases right with
    | int other =>
      obtain rfl : value = other := by simpa [Number.same] using same
      obtain ⟨x, rounded⟩ := fits.exists_toDouble?
      simp [compare?, rounded]
    | double y => simp [Number.same] at same
  | double x =>
    cases right with
    | int other => simp [Number.same] at same
    | double y =>
      have ranks : x.rank = y.rank := by simpa [Number.same] using same
      rw [compare?_double, Int.compare_eq_eq.2 ranks]

theorem AreExact.not_blurs : ∀ {left right : Number}, left.AreExact right → ¬ left.Blurs right
  | .int left, .int right, ⟨small, small'⟩, ⟨differ, level⟩ => by
    rw [compare?_int small small', Option.some.injEq, Int.compare_eq_eq] at level
    simp [Number.same, level] at differ
  | .double x, .double y, _, ⟨differ, level⟩ => by
    rw [compare?_double, Option.some.injEq, Int.compare_eq_eq] at level
    simp [Number.same, level] at differ

end Number

namespace Json

/-- Two values of a type that has an order; the numbers are ones that a text can hold. -/
inductive Comparable : Json → Json → Prop where
  | numbers {left right : Number} : left.Fits → right.Fits →
      Comparable (.number left) (.number right)
  | strings (left right : String) : Comparable (.string left) (.string right)
  | bools (left right : Bool) : Comparable (.bool left) (.bool right)

def Blurs : Json → Json → Prop
  | .number left, .number right => left.Blurs right
  | _, _ => False

/-- Two values that are no numbers, or numbers that doubles tell apart. -/
def AreExact : Json → Json → Prop
  | .number left, .number right => left.AreExact right
  | _, _ => True

variable {actual expected : Json}

theorem AreExact.not_blurs : ∀ {actual expected : Json},
    actual.AreExact expected → ¬ actual.Blurs expected
  | .number _, .number _, exact, blurs => Number.AreExact.not_blurs exact blurs

/-- Values of one type are in order, and equal values are on a level. -/
theorem Comparable.exists_order (comparable : actual.Comparable expected) :
    ∃ order, actual.compare? expected = some order ∧
      (actual.same expected = true → order = .eq) := by
  cases comparable with
  | @numbers left right fits fits' =>
    obtain ⟨order, compared⟩ := Option.isSome_iff_exists.1 (fits.compare?_isSome fits')
    refine ⟨order, compared, fun same => ?_⟩
    have level := Number.compare?_of_same fits (by simpa [Json.same] using same)
    rw [compared] at level
    exact Option.some.inj level
  | strings left right =>
    refine ⟨_, rfl, fun same => ?_⟩
    obtain rfl : left = right := by simpa [Json.same] using same
    simp
  | bools left right =>
    refine ⟨_, rfl, fun same => ?_⟩
    obtain rfl : left = right := by simpa [Json.same] using same
    simp

theorem Comparable.blurs_iff (comparable : actual.Comparable expected) :
    actual.Blurs expected ↔
      actual.same expected = false ∧ actual.compare? expected = some .eq := by
  cases comparable with
  | numbers fits fits' =>
    rw [Json.same]
    exact Iff.rfl
  | strings left right => simp [Blurs, Json.same, Json.compare?]
  | bools left right =>
    cases left <;> cases right <;> simp [Blurs, Json.same, Json.compare?]

end Json

/-! ## Members of a filter -/

namespace Record

open Comparison (IsFieldName)

variable {record : Record} {field : String} {actual expected : Json}

/-- Whether the record matches a filter of one member. -/
def meets (record : Record) (field : String) (expected : Json) (comparison : Comparison) : Bool :=
  record.matchesFilter (.object [(comparison.key field, expected)])

/-- The comparisons of a field with one value fit together. -/
structure Coherent (record : Record) (field : String) (expected : Json) : Prop where
  one : ∃! comparison, comparison ∈ [Comparison.less, .equal, .greater] ∧
    record.meets field expected comparison = true
  lessOrEqual : record.meets field expected .lessOrEqual = true ↔
    record.meets field expected .less = true ∨ record.meets field expected .equal = true
  greaterOrEqual : record.meets field expected .greaterOrEqual = true ↔
    record.meets field expected .greater = true ∨ record.meets field expected .equal = true
  unequal : record.meets field expected .unequal = true ↔
    ¬ record.meets field expected .equal = true

/-- A comparison and its opposite never agree, and what is equal is neither less nor greater. -/
structure Opposed (record : Record) (field : String) (expected : Json) : Prop where
  unequal : record.meets field expected .unequal = !record.meets field expected .equal
  lessOrEqual : record.meets field expected .lessOrEqual = !record.meets field expected .greater
  greaterOrEqual : record.meets field expected .greaterOrEqual = !record.meets field expected .less
  apart : (record.meets field expected .less && record.meets field expected .greater) = false
  level : record.meets field expected .equal = true →
    record.meets field expected .less = false ∧ record.meets field expected .greater = false

theorem meets_eq (name : IsFieldName field) (present : Assoc.get? field record = some actual)
    (comparison : Comparison) :
    record.meets field expected comparison = comparison.holds actual expected := by
  simp [meets, matchesFilter, matchesMember, Comparison.ofKey_key name, present]

theorem opposed (name : IsFieldName field) (present : Assoc.get? field record = some actual)
    (comparable : actual.Comparable expected) : record.Opposed field expected := by
  obtain ⟨order, compared, level⟩ := comparable.exists_order
  have holds : ∀ comparison, record.meets field expected comparison =
      comparison.holds actual expected := meets_eq name present
  constructor
  case level =>
    intro equal
    rw [holds] at equal
    simp [holds, Comparison.holds, compared, level equal]
  all_goals cases order <;> simp [holds, Comparison.holds, compared]

theorem coherent_of_not_blurs (name : IsFieldName field)
    (present : Assoc.get? field record = some actual) (comparable : actual.Comparable expected)
    (sharp : ¬ actual.Blurs expected) : record.Coherent field expected := by
  obtain ⟨order, compared, level⟩ := comparable.exists_order
  have holds : ∀ comparison, record.meets field expected comparison =
      comparison.holds actual expected := meets_eq name present
  -- Of the two readings of a number, the finer one then says no more than the other.
  have same : actual.same expected = decide (order = .eq) := by
    rw [comparable.blurs_iff, compared] at sharp
    cases equal : actual.same expected with
    | true => simp [level equal]
    | false => simpa [equal] using sharp
  constructor
  case one =>
    cases order with
    | lt => exact ⟨.less, by simp [holds, Comparison.holds, compared, same]⟩
    | eq => exact ⟨.equal, by simp [holds, Comparison.holds, compared, same]⟩
    | gt => exact ⟨.greater, by simp [holds, Comparison.holds, compared, same]⟩
  all_goals cases order <;> simp [holds, Comparison.holds, compared, same]

theorem not_coherent_of_blurs (name : IsFieldName field)
    (present : Assoc.get? field record = some actual) (comparable : actual.Comparable expected)
    (blurs : actual.Blurs expected) : ¬ record.Coherent field expected := by
  intro coherent
  obtain ⟨differ, level⟩ := comparable.blurs_iff.1 blurs
  obtain ⟨comparison, ⟨mem, met⟩, -⟩ := coherent.one
  rw [meets_eq name present] at met
  simp only [List.mem_cons, List.not_mem_nil, or_false] at mem
  rcases mem with rfl | rfl | rfl <;> simp [Comparison.holds, differ, level] at met

/-- When the operators fit together on values of one type, and what holds of them all the same. -/
theorem coherent_exact (record : Record) (field : String) (actual expected : Json)
    (name : IsFieldName field) (present : Assoc.get? field record = some actual)
    (comparable : actual.Comparable expected) :
    (record.Coherent field expected ↔ ¬ actual.Blurs expected) ∧
    (actual.AreExact expected → record.Coherent field expected) ∧
    record.Opposed field expected := by
  have sharp := coherent_of_not_blurs name present comparable
  refine ⟨⟨fun coherent blurs => ?_, sharp⟩, fun exact => sharp exact.not_blurs,
    opposed name present comparable⟩
  exact not_coherent_of_blurs name present comparable blurs coherent

def sized (size : Json) : Record := [("size", size)]

/-- The two greatest integers of 53 bits. -/
theorem coherent_exact_widest :
    let actual : Json := .number (.int 9007199254740990)
    let expected : Json := .number (.int 9007199254740991)
    IsFieldName "size" ∧ Assoc.get? "size" (sized actual) = some actual ∧
      actual.Comparable expected ∧ (sized actual).Coherent "size" expected := by
  intro actual expected
  have name : IsFieldName "size" := by decide
  have comparable : actual.Comparable expected :=
    .numbers ⟨by decide, by decide⟩ ⟨by decide, by decide⟩
  obtain ⟨-, sharp, -⟩ := coherent_exact (sized actual) "size" actual expected name rfl comparable
  exact ⟨name, rfl, comparable, sharp ⟨by decide, by decide⟩⟩

/-- An integer of 54 bits has the double of the one below, and an integer has that of a double. -/
theorem blurred_numbers_fit_no_operator :
    let wide := sized (.number (.int 9007199254740993))
    let below : Json := .number (.int 9007199254740992)
    let one := sized (.number (.int 1))
    let real : Json := .number (.double ⟨false, 1023 * Nat.pow 2 52, by decide⟩)
    let between : List Comparison := [.less, .equal, .greater]
    IsFieldName "size" ∧ between.map (wide.meets "size" below) = [false, false, false] ∧
      wide.meets "size" below .lessOrEqual = true ∧ ¬ wide.Coherent "size" below ∧
      between.map (one.meets "size" real) = [false, false, false] ∧
      one.meets "size" real .greaterOrEqual = true ∧ ¬ one.Coherent "size" real := by
  intro wide below one real between
  have name : IsFieldName "size" := by decide
  have apart : ¬ wide.Coherent "size" below :=
    not_coherent_of_blurs name rfl (.numbers ⟨by decide, by decide⟩ ⟨by decide, by decide⟩)
      ⟨by decide +kernel, by decide +kernel⟩
  have apart' : ¬ one.Coherent "size" real :=
    not_coherent_of_blurs name rfl (.numbers ⟨by decide, by decide⟩ trivial)
      ⟨by decide +kernel, by decide +kernel⟩
  exact ⟨name, by decide +kernel, by decide +kernel, apart, by decide +kernel, by decide +kernel,
    apart'⟩

end Record

end RelationExpansion
